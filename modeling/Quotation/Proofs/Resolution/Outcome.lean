import Mathlib.Data.List.Forall2
import Quotation.Resolution.Traced

/-!
# Outcomes of sequences

A sequence of computations ends with the failure of the first one that fails, and succeeds if every one does. This holds of computations that may fail (`failure?_mapM`), and with `outcome_mapM` of traced ones too. What holds of results and failures is carried through sequences by `Ends`. Two sequences are related if their parts are, for every relation that goes through one step after the other (`Traced.Compatible`).
-/

namespace Quotation

variable {ε ε' α β : Type}

namespace Outcome

def failure? : Except ε α → Option ε
  | .ok _ => none
  | .error e => some e

@[simp] theorem failure?_ok (a : α) : failure? (.ok a : Except ε α) = none := rfl

@[simp] theorem failure?_error (e : ε) : failure? (.error e : Except ε α) = some e := rfl

theorem failure?_eq_some_iff {x : Except ε α} {e : ε} : failure? x = some e ↔ x = .error e := by
  cases x <;> simp

@[simp] theorem failure?_map (f : α → β) (x : Except ε α) : failure? (x.map f) = failure? x := by
  cases x <;> rfl

@[simp] theorem failure?_mapError (f : ε → ε') (x : Except ε α) : failure? (x.mapError f) = (failure? x).map f := by
  cases x <;> rfl

theorem bind_eq_ok_iff {x : Except ε α} {next : α → Except ε β} {b : β} :
    (x >>= next) = .ok b ↔ ∃ a, x = .ok a ∧ next a = .ok b := by
  cases x <;> simp [bind, Except.bind]

theorem map_eq_ok_iff {x : Except ε α} {f : α → β} {b : β} : x.map f = .ok b ↔ ∃ a, x = .ok a ∧ f a = b := by
  cases x <;> simp [Except.map]

theorem mapError_eq_ok_iff {x : Except ε α} {f : ε → ε'} {a : α} : x.mapError f = .ok a ↔ x = .ok a := by
  cases x <;> simp [Except.mapError]

theorem failure?_mapM (f : α → Except ε β) (xs : List α) :
    failure? (xs.mapM f) = xs.findSome? fun x => failure? (f x) := by
  induction xs with
  | nil => rfl
  | cons x xs ih =>
    rw [List.mapM_cons, List.findSome?_cons]
    cases hx : f x with
    | error e => rfl
    | ok b =>
      rw [failure?_ok, ← ih]
      cases xs.mapM f <;> rfl

theorem mapM_eq_ok {f : α → Except ε β} {g : α → β} {xs : List α} (h : ∀ x ∈ xs, f x = .ok (g x)) :
    xs.mapM f = .ok (xs.map g) := by
  induction xs with
  | nil => rfl
  | cons x xs ih =>
    rw [List.mapM_cons, h x (by simp), ih fun y hy => h y (List.mem_cons_of_mem _ hy)]
    rfl

theorem forall₂_of_mapM {f : α → Except ε β} {xs : List α} {ys : List β} (h : xs.mapM f = .ok ys) :
    List.Forall₂ (fun x y => f x = .ok y) xs ys := by
  induction xs generalizing ys with
  | nil =>
    obtain rfl : [] = ys := Except.ok.inj h
    exact .nil
  | cons x xs ih =>
    rw [List.mapM_cons] at h
    obtain ⟨y, hy, hrest⟩ := bind_eq_ok_iff.1 h
    obtain ⟨rest, hxs, hcons⟩ := bind_eq_ok_iff.1 hrest
    obtain rfl := Except.ok.inj hcons
    exact .cons hy (ih hxs)

theorem mem_of_mapM {f : α → Except ε β} {xs : List α} {ys : List β} {x : α} {y : β} (h : xs.mapM f = .ok ys) (hx : x ∈ xs)
    (hy : f x = .ok y) : y ∈ ys := by
  obtain ⟨index, hindex, rfl⟩ := List.mem_iff_getElem.1 hx
  have hall := forall₂_of_mapM h
  have hsame := hall.get hindex (hall.length_eq ▸ hindex)
  obtain rfl := Except.ok.inj (hy.symm.trans hsame)
  exact List.get_mem _ _

theorem mapM_of_forall₂ {f : α → Except ε β} {xs : List α} {ys : List β} (h : List.Forall₂ (fun x y => f x = .ok y) xs ys) :
    xs.mapM f = .ok ys := by
  induction h with
  | nil => rfl
  | cons hfirst _ ih =>
    rw [List.mapM_cons, hfirst, ih]
    rfl

theorem exists_mapM {f : α → Except ε β} {xs : List α} (h : ∀ x ∈ xs, ∃ y, f x = .ok y) : ∃ ys, xs.mapM f = .ok ys := by
  cases hmap : xs.mapM f with
  | ok ys => exact ⟨ys, rfl⟩
  | error e =>
    have hfails := failure?_mapM f xs
    rw [hmap, failure?_error] at hfails
    obtain ⟨x, hx, hfailure⟩ := List.exists_of_findSome?_eq_some hfails.symm
    obtain ⟨y, hy⟩ := h x hx
    rw [hy] at hfailure
    cases hfailure

theorem exists_mem_iff_of_forall₂ {R : α → β → Prop} {P : α → Prop} {Q : β → Prop} {xs : List α} {ys : List β}
    (h : List.Forall₂ R xs ys) (hiff : ∀ x y, R x y → (P x ↔ Q y)) : (∃ x ∈ xs, P x) ↔ ∃ y ∈ ys, Q y := by
  induction h with
  | nil => simp
  | cons hfirst _ ih => rw [List.exists_mem_cons_iff, List.exists_mem_cons_iff, hiff _ _ hfirst, ih]

/-! ### What holds at the end -/

/-- The result of a computation is good, or its failure is bad. -/
def Ends (good : α → Prop) (bad : ε → Prop) : Except ε α → Prop
  | .ok a => good a
  | .error e => bad e

section

variable {good : α → Prop} {next : β → Prop} {bad : ε → Prop} {worse : ε' → Prop} {x : Except ε α}

theorem Ends.of_ok {a : α} (h : Ends good bad x) (hx : x = .ok a) : good a := by
  rw [hx] at h
  exact h

theorem Ends.of_error {e : ε} (h : Ends good bad x) (hx : x = .error e) : bad e := by
  rw [hx] at h
  exact h

theorem Ends.imp {better : α → Prop} (h : Ends good bad x) (himp : ∀ a, x = .ok a → good a → better a) : Ends better bad x := by
  cases x with
  | ok a => exact himp a rfl h
  | error e => exact h

theorem Ends.imp_error {less : ε → Prop} (h : Ends good bad x) (himp : ∀ e, bad e → less e) : Ends good less x := by
  cases x with
  | ok a => exact h
  | error e => exact himp e h

theorem Ends.bind {f : α → Except ε β} (h : Ends good bad x) (hf : ∀ a, good a → Ends next bad (f a)) :
    Ends next bad (x >>= f) := by
  cases x with
  | ok a => exact hf a h
  | error e => exact h

theorem Ends.map {f : α → β} (h : Ends good bad x) (hf : ∀ a, good a → next (f a)) : Ends next bad (x.map f) := by
  cases x with
  | ok a => exact hf a h
  | error e => exact h

theorem Ends.mapError {f : ε → ε'} (h : Ends good bad x) (hf : ∀ e, bad e → worse (f e)) : Ends good worse (x.mapError f) := by
  cases x with
  | ok a => exact h
  | error e => exact hf e h

theorem Ends.mapM {f : α → Except ε β} {xs : List α} (h : ∀ a ∈ xs, Ends next bad (f a)) :
    Ends (fun ys => ∀ b ∈ ys, next b) bad (xs.mapM f) := by
  induction xs with
  | nil => exact fun b hb => absurd hb (by simp)
  | cons a rest ih =>
    have hrest := ih fun other hother => h other (List.mem_cons_of_mem _ hother)
    rw [List.mapM_cons]
    refine (h a (by simp)).bind fun b hb => hrest.bind fun ys hys => ?_
    exact fun c hc => (List.mem_cons.1 hc).elim (fun heq => heq ▸ hb) (hys c)

end

end Outcome

namespace Traced

theorem ends_bind {good : α → Prop} {next : β → Prop} {bad : Failure → Prop} {x : Traced α} {f : α → Traced β}
    (h : Outcome.Ends good bad x.outcome) (hf : ∀ a, good a → Outcome.Ends next bad (f a).outcome) :
    Outcome.Ends next bad (x >>= f).outcome := by
  rw [outcome_bind]
  cases houtcome : x.outcome with
  | ok a => exact hf a (h.of_ok houtcome)
  | error failure => exact h.of_error houtcome

theorem outcome_map (f : α → β) (x : Traced α) : (f <$> x).outcome = x.outcome.map f := by
  rw [map_eq_bind, outcome_bind]
  cases x.outcome <;> rfl

theorem outcome_mapM (f : α → Traced β) (xs : List α) : (xs.mapM f).outcome = xs.mapM fun x => (f x).outcome := by
  induction xs with
  | nil => rfl
  | cons x xs ih =>
    rw [List.mapM_cons, List.mapM_cons, outcome_bind]
    cases (f x).outcome with
    | error failure => rfl
    | ok b =>
      dsimp only
      rw [outcome_bind, ih]
      cases xs.mapM fun x => (f x).outcome <;> rfl

theorem mapM_eq_pure {f : α → Traced β} {g : α → β} {xs : List α} (h : ∀ x ∈ xs, f x = pure (g x)) :
    xs.mapM f = pure (xs.map g) := by
  induction xs with
  | nil => rfl
  | cons x xs ih =>
    rw [List.mapM_cons, h x (by simp), ih fun y hy => h y (List.mem_cons_of_mem _ hy)]
    rfl

theorem bind_of_ok {x : Traced α} {a : α} (h : x.outcome = .ok a) (next : α → Traced β) :
    x >>= next = ⟨x.events ++ (next a).events, (next a).outcome⟩ := by
  show Traced.bind x next = _
  rw [Traced.bind, h]

theorem bind_of_error {x : Traced α} {failure : Failure} (h : x.outcome = .error failure) (next : α → Traced β) :
    x >>= next = ⟨x.events, .error failure⟩ := by
  show Traced.bind x next = _
  rw [Traced.bind, h]

theorem bind_congr {x : Traced α} {f g : α → Traced β} (h : ∀ a, x.outcome = .ok a → g a = f a) : x >>= g = x >>= f := by
  cases houtcome : x.outcome with
  | ok a => rw [bind_of_ok houtcome, bind_of_ok houtcome, h a houtcome]
  | error failure => rw [bind_of_error houtcome, bind_of_error houtcome]

/-- A relation between computations that holds for what follows one another if it holds for the parts, as far as both computations get with the same result. -/
structure Compatible (R : (α : Type) → Traced α → Traced α → Prop) : Prop where
  pure : ∀ {α : Type} (a : α), R α (pure a) (pure a)
  bind : ∀ {α β : Type} {x y : Traced α} {next later : α → Traced β}, R α y x →
    (∀ a, x.outcome = .ok a → y.outcome = .ok a → R β (later a) (next a)) → R β (y >>= later) (x >>= next)

section

variable {R : (α : Type) → Traced α → Traced α → Prop}

theorem compatible_eq : Compatible fun _ => Eq := by
  refine ⟨fun _ => rfl, fun hsame hnext => ?_⟩
  subst hsame
  exact bind_congr fun a ha => hnext a ha ha

theorem Compatible.map (hR : Compatible R) {x y : Traced α} (h : R α y x) (f : α → β) : R β (f <$> y) (f <$> x) :=
  hR.bind h fun a _ _ => hR.pure (f a)

/-- Two sequences are related if their parts are, as far as both sequences get with the same results. -/
theorem Compatible.mapM (hR : Compatible R) {f g : α → Traced β} {xs : List α}
    (h : ∀ earlier x later, xs = earlier ++ x :: later →
      (∀ y ∈ earlier, ∃ b, (f y).outcome = .ok b ∧ (g y).outcome = .ok b) → R β (g x) (f x)) :
    R (List β) (xs.mapM g) (xs.mapM f) := by
  induction xs with
  | nil => exact hR.pure []
  | cons x xs ih =>
    rw [List.mapM_cons, List.mapM_cons]
    refine hR.bind (h [] x xs rfl (by simp)) fun b hf hg => ?_
    refine hR.bind (ih ?_) fun bs _ _ => hR.pure (b :: bs)
    intro earlier y later hxs hearlier
    refine h (x :: earlier) y later (by rw [hxs]; rfl) ?_
    intro z hz
    obtain rfl | hz := List.mem_cons.1 hz
    · exact ⟨b, hf, hg⟩
    · exact hearlier z hz

end

theorem mapM_map_result {γ : Type} (g : β → γ) (f : α → Traced β) (xs : List α) :
    xs.mapM (fun x => g <$> f x) = List.map g <$> xs.mapM f := by
  induction xs with
  | nil => rfl
  | cons x xs ih => simp [List.mapM_cons, ih]

end Traced

end Quotation
