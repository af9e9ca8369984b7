import Quotation.Proofs.Resolution.Shortcut

/-!
# What is told of the markers that are met

Resolving tells one thing about each marker that it meets, and it meets them from left to right, each before the markers of its quote (`Traced.Tells`). A file that is resolved tells of all markers in this order, and one that fails of the first ones (`tells_resolveFile`). Nothing else is told: the markers of a quote that is not followed are passed over.
-/

namespace Quotation

open Outcome

/-- What is told of a marker, once it is known what it turns out to be. -/
inductive IsToldOf (t : Tree) : Context × Text → Event → Prop where
  | left {ctx : Context} {body : Text} (prose : Reading.ofBody t ctx body = .ok .prose) :
      IsToldOf t (ctx, body) (.left (Segment.marker body).toText)
  | unresolved {ctx : Context} {body : Text} {c : Citation} (dangling : Reading.ofBody t ctx body = .ok (.dangling c)) :
      IsToldOf t (ctx, body) (.unresolved (Segment.marker body).toText)
  | cited {ctx : Context} {body : Text} {c : Citation} {target : Path} (found : Reading.ofBody t ctx body = .ok (.found c target)) :
      IsToldOf t (ctx, body) (.cited (Segment.marker body).toText target)

/-- What a computation tells is about the markers one after the other: about all of them if it succeeds, and about the first ones if it fails. -/
structure Traced.Tells {α : Type} (t : Tree) (x : Traced α) (met : List (Context × Text)) : Prop where
  first : ∃ first, first <+: met ∧ List.Forall₂ (IsToldOf t) first (told x.events)
  all : ∀ a, x.outcome = .ok a → List.Forall₂ (IsToldOf t) met (told x.events)

namespace Traced.Tells

variable {α β : Type} {t : Tree} {x : Traced α} {next : α → Traced β} {met more : List (Context × Text)}

theorem of_silent (h : told x.events = []) : x.Tells t [] := by
  have hnone : List.Forall₂ (IsToldOf t) [] (told x.events) := h ▸ .nil
  exact ⟨⟨[], List.nil_prefix, hnone⟩, fun _ _ => hnone⟩

theorem of_error {failure : Failure} (htold : told x.events = []) (h : x.outcome = .error failure) : x.Tells t met := by
  refine ⟨⟨[], List.nil_prefix, htold ▸ .nil⟩, fun a ha => ?_⟩
  cases h.symm.trans ha

theorem bind (h : x.Tells t met) (hnext : ∀ a, x.outcome = .ok a → (next a).Tells t more) : (x >>= next).Tells t (met ++ more) := by
  cases hx : x.outcome with
  | error failure =>
    obtain ⟨first, hfirst, htold⟩ := h.first
    rw [bind_of_error hx]
    refine ⟨⟨first, hfirst.trans (List.prefix_append _ _), htold⟩, fun b hb => ?_⟩
    cases hb
  | ok a =>
    have hall := h.all a hx
    obtain ⟨⟨first, hfirst, htold⟩, hlater⟩ := hnext a hx
    rw [bind_of_ok hx]
    constructor
    · rw [told_append]
      exact ⟨met ++ first, (List.prefix_append_right_inj _).2 hfirst, List.rel_append hall htold⟩
    · intro b hb
      rw [told_append]
      exact List.rel_append hall (hlater b hb)

theorem of_next (hx : told x.events = []) (h : ∀ a, x.outcome = .ok a → (next a).Tells t met) : (x >>= next).Tells t met :=
  (of_silent hx).bind h

theorem of_first (h : x.Tells t met) (hnext : ∀ a, told (next a).events = []) : (x >>= next).Tells t met := by
  have hbind := h.bind fun a _ => of_silent (hnext a)
  rwa [List.append_nil] at hbind

theorem map (h : x.Tells t met) (f : α → β) : (f <$> x).Tells t met := h.of_first fun _ => rfl

theorem mapM {f : α → Traced β} {metAt : α → List (Context × Text)} {xs : List α} (h : ∀ a ∈ xs, (f a).Tells t (metAt a)) :
    (xs.mapM f).Tells t (xs.flatMap metAt) := by
  induction xs with
  | nil => exact of_silent rfl
  | cons a rest ih =>
    have hrest := ih fun other hother => h other (List.mem_cons_of_mem _ hother)
    rw [List.mapM_cons, List.flatMap_cons]
    exact (h a (by simp)).bind fun _ _ => hrest.map _

end Traced.Tells

variable {t : Tree} {config : Config} {descend : Descent} {ctx : Context} {lines : List Text} {line body : Text}
  {inner : List (Context × Text)} {event : Event} {budget more : Nat} {base file : Path}

/-! ### One marker -/

theorem tells_note (h : IsToldOf t (ctx, body) event) : (Traced.note event).Tells t [(ctx, body)] := by
  have htold : List.Forall₂ (IsToldOf t) [(ctx, body)] (told (Traced.note event).events) := by
    cases h with
    | left prose => exact .cons (.left prose) .nil
    | unresolved dangling => exact .cons (.unresolved dangling) .nil
    | cited found => exact .cons (.cited found) .nil
  exact ⟨⟨_, List.prefix_refl _, htold⟩, fun _ _ => htold⟩

/-- Of a marker one thing is told, and then what going on with its quote tells, if the quote is followed. -/
theorem tells_resolveSegment
    (h : match followed? t config ctx body with
      | some (target, quote) => (descend (Segment.marker body).toText (ctx.nested target) quote).Tells t inner
      | none => inner = []) :
    (resolveSegment t config descend ctx (.marker body)).Tells t ((ctx, body) :: inner) := by
  rw [resolveSegment]
  rw [followed?] at h
  cases hread : Reading.ofBody t ctx body with
  | error fault => exact .of_error rfl rfl
  | ok reading =>
    rw [hread] at h
    refine .of_next rfl fun read hsame => ?_
    obtain rfl := Except.ok.inj hsame
    cases reading with
    | prose =>
      obtain rfl := h
      exact (tells_note (.left hread)).map _
    | faulty token reason => exact .of_error rfl rfl
    | dangling c =>
      obtain rfl := h
      rw [resolveReading]
      split
      · exact .of_error rfl rfl
      · exact (tells_note (.unresolved hread)).map _
    | found c target =>
      refine (tells_note (.cited hread)).bind fun _ _ => ?_
      dsimp only at h
      cases hquote : t.excerpt config.encoding c target with
      | error failure => exact .of_error rfl rfl
      | ok quote =>
        rw [hquote] at h
        refine .of_next rfl fun quoted hsame => ?_
        obtain rfl := Except.ok.inj hsame
        dsimp only at h ⊢
        split
        · next hfollowed =>
          rw [if_pos (by simpa using hfollowed)] at h
          exact h.of_first fun _ => rfl
        · next hstays =>
          rw [if_neg (by simpa using hstays)] at h
          obtain rfl := h
          exact .of_silent rfl

/-! ### Lines and files -/

theorem tells_mapM_resolveLine {metIn : Text → List (Context × Text)}
    (h : ∀ body, (resolveSegment t config descend ctx (.marker body)).Tells t ((ctx, body) :: metIn body)) :
    (lines.mapM (resolveLine t config descend ctx)).Tells t
      ((lines.flatMap Segment.markers).flatMap fun body => (ctx, body) :: metIn body) := by
  rw [List.flatMap_assoc]
  refine .mapM fun line _ => ?_
  rw [resolveLine, Segment.markers, List.filterMap_eq_flatMap_toList, List.flatMap_assoc]
  refine .map (.mapM fun segment _ => ?_) _
  cases segment with
  | text content => exact .of_silent rfl
  | marker body => simpa [Segment.body?] using h body

theorem tells_resolveLines (hmore : budget ≤ more) :
    (lines.mapM (resolveLine t config (resolveQuote t config budget) ctx)).Tells t (mayMeet t config more ctx lines) := by
  induction budget generalizing more ctx lines with
  | zero =>
    have hmarker : ∀ body metIn, (followed? t config ctx body = none → metIn = []) →
        (resolveSegment t config (resolveQuote t config 0) ctx (.marker body)).Tells t ((ctx, body) :: metIn) := by
      intro body metIn hnone
      apply tells_resolveSegment
      cases hquote : followed? t config ctx body with
      | none => exact hnone hquote
      | some quoted => exact .of_error rfl rfl
    cases more with
    | zero =>
      rw [mayMeet, List.map_eq_flatMap]
      exact tells_mapM_resolveLine fun body => hmarker body [] fun _ => rfl
    | succ more =>
      rw [mayMeet]
      exact tells_mapM_resolveLine fun body => hmarker body _ fun hnone => by rw [hnone]
  | succ budget ih =>
    cases more with
    | zero => cases hmore
    | succ more =>
      rw [mayMeet]
      refine tells_mapM_resolveLine fun body => ?_
      apply tells_resolveSegment
      cases followed? t config ctx body with
      | none => rfl
      | some quoted => exact .of_next rfl fun _ _ => (ih (Nat.le_of_succ_le_succ hmore)).map _

theorem tells_resolveFile (hlines : t.citedLines config.encoding (base.within file) = .ok lines) (hmore : config.maxDepth.toNat ≤ more) :
    (resolveFile t config base file).Tells t
      (mayMeet t config more { baseDir := base, citingFile := base.within file, recursive := config.recursive } lines) := by
  have hsource : (resolveSource t config base (base.within file)).Tells t
      (mayMeet t config more { baseDir := base, citingFile := base.within file, recursive := config.recursive } lines) := by
    rw [resolveSource, hlines]
    refine .of_next rfl fun read hread => ?_
    obtain rfl := Except.ok.inj hread
    exact (tells_resolveLines hmore).of_first fun _ => rfl
  refine ⟨hsource.first, fun resolved hresolved => ?_⟩
  obtain ⟨both, hboth, -⟩ := map_eq_ok_iff.1 (mapError_eq_ok_iff.1 hresolved)
  exact hsource.all both hboth

end Quotation
