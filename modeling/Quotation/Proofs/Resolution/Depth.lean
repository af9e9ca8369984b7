import Quotation.Proofs.Excerpt
import Quotation.Proofs.Resolution.Settings

/-!
# The bound on depth

The bound on the depth of quotes decides whether a file is resolved, and has no part in what it is resolved to. A computation under a larger bound is the one under the smaller bound, unless that one hits its bound (`Traced.Outlasts`). The steps of the two are the same, and quotes hand this on from the quotes within them (`resolveQuote_outlasts`).
-/

namespace Quotation

namespace Traced

variable {α β : Type}

def HitsBound (x : Traced α) : Prop := ∃ complaint, x.outcome = .error (.citation complaint) ∧ complaint.error.IsTooDeep

/-- The first computation is the second one, unless that hits the bound. -/
def Outlasts (y x : Traced α) : Prop := ¬ x.HitsBound → y = x

theorem HitsBound.bind {x : Traced α} (h : x.HitsBound) (next : α → Traced β) : (x >>= next).HitsBound := by
  obtain ⟨complaint, houtcome, hdeep⟩ := h
  exact ⟨complaint, by rw [outcome_bind, houtcome], hdeep⟩

theorem HitsBound.of_next {x : Traced α} {next : α → Traced β} {a : α} (hx : x.outcome = .ok a) (h : (next a).HitsBound) :
    (x >>= next).HitsBound := by
  obtain ⟨complaint, houtcome, hdeep⟩ := h
  refine ⟨complaint, ?_, hdeep⟩
  rw [outcome_bind, hx]
  exact houtcome

theorem Outlasts.refl (x : Traced α) : Outlasts x x := fun _ => rfl

theorem Outlasts.bind {x y : Traced α} {next later : α → Traced β} (h : Outlasts y x)
    (hnext : ∀ a, x.outcome = .ok a → y.outcome = .ok a → Outlasts (later a) (next a)) : Outlasts (y >>= later) (x >>= next) := by
  intro hbound
  obtain rfl : y = x := h fun hx => hbound (hx.bind next)
  exact bind_congr fun a ha => hnext a ha ha fun hdeep => hbound (hdeep.of_next ha)

theorem compatible_outlasts : Compatible fun _ => Outlasts := ⟨fun a => .refl (pure a), Outlasts.bind⟩

end Traced

open Traced

variable {t : Tree} {config : Config} {bound larger : Int} {base file : Path}

/-! ### Quotes within quotes -/

theorem carries_outlasts : Carries (fun _ => Outlasts) t { config with maxDepth := bound } { config with maxDepth := larger } where
  toCompatible := compatible_outlasts
  encoding := rfl
  recursive := rfl
  layOut := rfl
  lift _ := .refl _
  left _ := .refl _
  cited _ _ := .refl _
  entered _ _ := .refl _
  dangling _ _ _ _ _ _ := .refl _

/-- The bound in the configuration is told in the error and used for nothing else; how deep quotes are followed is told by the budget. -/
theorem resolveQuote_outlasts {budget ample : Nat} (hle : budget ≤ ample) (marker : Text) (ctx : Context) (quote : Text) :
    Outlasts (resolveQuote t { config with maxDepth := larger } ample marker ctx quote)
      (resolveQuote t { config with maxDepth := bound } budget marker ctx quote) := by
  induction budget generalizing ample marker ctx quote with
  | zero =>
    intro hbound
    exact absurd ⟨⟨.tooDeep marker bound, none⟩, rfl, trivial⟩ hbound
  | succ budget ih =>
    obtain ⟨extra, rfl⟩ : ∃ extra, ample = budget + extra + 1 := Nat.exists_eq_add_of_lt hle
    exact carries_outlasts.resolveQuote_succ (ih (Nat.le_add_right budget extra)) marker ctx quote

/-! ### Files -/

theorem resolveSource_outlasts (hle : bound ≤ larger) (base source : Path) :
    Outlasts (resolveSource t { config with maxDepth := larger } base source)
      (resolveSource t { config with maxDepth := bound } base source) :=
  carries_outlasts.resolveSource (resolveQuote_outlasts (Int.toNat_le_toNat hle)) base source

/-- A file that is not nested too deep for a bound is resolved in the same way, or fails in the same way, under any larger one. -/
theorem resolveFile_of_maxDepth_le (config : Config) (hle : bound ≤ larger)
    (h : ¬ (resolveFile t { config with maxDepth := bound } base file).HitsBound) :
    resolveFile t { config with maxDepth := larger } base file = resolveFile t { config with maxDepth := bound } base file := by
  have hsource : resolveSource t { config with maxDepth := larger } base (base.within file) =
      resolveSource t { config with maxDepth := bound } base (base.within file) := by
    refine resolveSource_outlasts hle base (base.within file) fun hdeep => h ?_
    obtain ⟨complaint, houtcome, hdeep⟩ := hdeep
    exact ⟨complaint.inFile (base.within file), by rw [resolveFile, houtcome]; rfl, hdeep⟩
  rw [resolveFile, resolveFile, hsource]

def nestedTree : Tree :=
  ⟨[], .file "a".toList (Charset.Utf8.encode "[b]\n".toList)
    (.file "b".toList (Charset.Utf8.encode "[c]\n".toList)
      (.file "c".toList (Charset.Utf8.encode "x\n".toList) .empty))⟩

theorem resolveFile_of_one_level :
    (resolveFile nestedTree { recursive := true, maxDepth := 1 } Path.here (Path.ofText "a".toList)).outcome =
        .ok ⟨Path.ofText "a".toList, ["x".toList], true, 2, []⟩ ∧
      resolveFile nestedTree { recursive := true, maxDepth := 3 } Path.here (Path.ofText "a".toList) =
        resolveFile nestedTree { recursive := true, maxDepth := 1 } Path.here (Path.ofText "a".toList) := by
  have houtcome : (resolveFile nestedTree { recursive := true, maxDepth := 1 } Path.here (Path.ofText "a".toList)).outcome =
      .ok ⟨Path.ofText "a".toList, ["x".toList], true, 2, []⟩ := by decide +kernel
  refine ⟨houtcome, ?_⟩
  have hfits : ¬ (resolveFile nestedTree { recursive := true, maxDepth := 1 } Path.here (Path.ofText "a".toList)).HitsBound := by
    rintro ⟨complaint, herror, -⟩
    cases houtcome.symm.trans herror
  exact resolveFile_of_maxDepth_le { recursive := true } (by decide : (1 : Int) ≤ 3) hfits

end Quotation
