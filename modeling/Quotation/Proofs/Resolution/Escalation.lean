import Quotation.Proofs.Citation.RoundTrip
import Quotation.Proofs.Resolution.Settings

/-!
# Missing files as errors

A citation of a missing file is an error in the strict way of resolving, and in the lenient way its marker stays and is recorded. Up to the first such marker the two are the same computation, and there the strict one ends (`Traced.Escalates`). This goes from the markers to quotes and to files, so the strict way is the lenient one with a test of its record (`resolveFile_strict_iff`).
-/

namespace Quotation

open Outcome

def Config.strict (config : Config) : Config := { config with failOnUnresolved := true }

def Config.lenient (config : Config) : Config := { config with failOnUnresolved := false }

theorem unresolvedMarkers_append (first second : List Event) :
    unresolvedMarkers (first ++ second) = unresolvedMarkers first ++ unresolvedMarkers second := List.filterMap_append

namespace Traced

variable {α β : Type}

/-- One computation is the other one up to the first citation of a missing file, and fails there. -/
inductive Escalates (strict lenient : Traced α) : Prop where
  | none (clean : unresolvedMarkers lenient.events = []) (same : strict = lenient)
  | first (marker : Text) (later : List Text) (c : Citation) (met : unresolvedMarkers lenient.events = marker :: later)
      (read : Citation.parseMarker marker = .ok c)
      (fails : strict.outcome = .error (CitationError.unresolved marker (Path.ofText c.ref)).failure)

theorem escalates_lift (outcome : Except Failure α) : Escalates (lift outcome) (lift outcome) := .none rfl rfl

theorem Escalates.bind {x y : Traced α} {next later : α → Traced β} (h : Escalates y x)
    (hnext : ∀ a, x.outcome = .ok a → y.outcome = .ok a → Escalates (later a) (next a)) : Escalates (y >>= later) (x >>= next) := by
  cases h with
  | first marker others c met read fails =>
    rw [bind_of_error fails]
    cases hx : x.outcome with
    | error failure =>
      rw [bind_of_error hx]
      exact .first marker others c met read rfl
    | ok a =>
      rw [bind_of_ok hx]
      refine .first marker (others ++ unresolvedMarkers (next a).events) c ?_ read rfl
      rw [unresolvedMarkers_append, met, List.cons_append]
  | none clean same =>
    subst same
    cases hy : y.outcome with
    | error failure =>
      rw [bind_of_error hy, bind_of_error hy]
      exact .none clean rfl
    | ok a =>
      have hmarkers : unresolvedMarkers (y.events ++ (next a).events) = unresolvedMarkers (next a).events := by
        rw [unresolvedMarkers_append, clean, List.nil_append]
      rw [bind_of_ok hy, bind_of_ok hy]
      cases hnext a hy hy with
      | none clean' same => exact .none (hmarkers.trans clean') (by rw [same])
      | first marker others c met read fails => exact .first marker others c (hmarkers.trans met) read fails

theorem compatible_escalates : Compatible fun _ => Escalates := ⟨fun _ => .none rfl rfl, Escalates.bind⟩

end Traced

open Traced

variable {t : Tree} {config : Config} {base file : Path}

/-! ### Markers and quotes -/

/-- A citation of a missing file is where the two part, and all other steps are the same. -/
theorem carries_escalates : Carries (fun _ => Escalates) t config.lenient config.strict where
  toCompatible := compatible_escalates
  encoding := rfl
  recursive := rfl
  layOut := rfl
  lift := escalates_lift
  left _ := .none rfl rfl
  cited _ _ := .none rfl rfl
  entered _ _ := .none rfl rfl
  dangling _ _ _ body c hparse := .first _ [] c rfl ((Citation.parseMarker_enclosed body).trans hparse) rfl

theorem resolveQuote_escalates (budget : Nat) (marker : Text) (ctx : Context) (quote : Text) :
    Escalates (resolveQuote t config.strict budget marker ctx quote) (resolveQuote t config.lenient budget marker ctx quote) := by
  induction budget generalizing marker ctx quote with
  | zero => exact .none rfl rfl
  | succ budget ih => exact carries_escalates.resolveQuote_succ ih marker ctx quote

/-! ### Files -/

theorem resolveSource_escalates (t : Tree) (config : Config) (base source : Path) :
    Escalates (resolveSource t config.strict base source) (resolveSource t config.lenient base source) :=
  carries_escalates.resolveSource (resolveQuote_escalates _) base source

theorem unresolved_of_resolveFile {resolved : Resolved} (h : (resolveFile t config base file).outcome = .ok resolved) :
    resolved.unresolved = unresolvedMarkers (resolveFile t config base file).events := by
  rw [resolveFile, mapError_eq_ok_iff, map_eq_ok_iff] at h
  obtain ⟨lines, -, rfl⟩ := h
  rfl

/-- The strict way of resolving a file is the lenient one if that records no marker of a missing file, and else fails with the first one recorded. -/
theorem resolveFile_strict_or (t : Tree) (config : Config) (base file : Path) :
    (unresolvedMarkers (resolveFile t config.lenient base file).events = [] ∧
        resolveFile t config.strict base file = resolveFile t config.lenient base file) ∨
      ∃ marker later c, unresolvedMarkers (resolveFile t config.lenient base file).events = marker :: later ∧
        Citation.parseMarker marker = .ok c ∧
        (resolveFile t config.strict base file).outcome =
          .error (.citation ⟨.unresolved marker (Path.ofText c.ref), some (base.within file)⟩) := by
  cases resolveSource_escalates t config base (base.within file) with
  | none clean same => exact .inl ⟨clean, by rw [resolveFile, resolveFile, same]⟩
  | first marker later c met read fails =>
    refine .inr ⟨marker, later, c, met, read, ?_⟩
    rw [resolveFile, fails]
    rfl

/-- Resolving strictly gives what resolving leniently gives without an unresolved marker. It fails with the first unresolved marker where there is one, and with any failure that comes before one. -/
theorem resolveFile_strict_iff (t : Tree) (config : Config) (base file : Path) :
    (∀ resolved, (resolveFile t config.strict base file).outcome = .ok resolved ↔
        (resolveFile t config.lenient base file).outcome = .ok resolved ∧ resolved.unresolved = []) ∧
      (∀ resolved marker later, (resolveFile t config.lenient base file).outcome = .ok resolved →
        resolved.unresolved = marker :: later →
        ∃ c, Citation.parseMarker marker = .ok c ∧ (resolveFile t config.strict base file).outcome =
          .error (.citation ⟨.unresolved marker (Path.ofText c.ref), some (base.within file)⟩)) ∧
      ∀ failure, (resolveFile t config.lenient base file).outcome = .error failure →
        unresolvedMarkers (resolveFile t config.lenient base file).events = [] →
        (resolveFile t config.strict base file).outcome = .error failure := by
  obtain ⟨hclean, hsame⟩ | ⟨first, others, c, hmet, hread, hfails⟩ := resolveFile_strict_or t config base file
  · refine ⟨fun resolved => ?_, fun resolved marker later hok hmarkers => ?_, fun failure herror _ => hsame ▸ herror⟩
    · rw [hsame]
      exact ⟨fun hok => ⟨hok, (unresolved_of_resolveFile hok).trans hclean⟩, And.left⟩
    · rw [unresolved_of_resolveFile hok, hclean] at hmarkers
      cases hmarkers
  · refine ⟨fun resolved => ⟨fun hok => ?_, fun ⟨hok, hnone⟩ => ?_⟩, fun resolved marker later hok hmarkers => ?_,
      fun failure _ hnone => ?_⟩
    · cases hfails.symm.trans hok
    · rw [unresolved_of_resolveFile hok, hmet] at hnone
      cases hnone
    · rw [unresolved_of_resolveFile hok, hmet] at hmarkers
      obtain ⟨rfl, -⟩ := List.cons.inj hmarkers
      exact ⟨c, hread, hfails⟩
    · rw [hmet] at hnone
      cases hnone

/-- What `a` quotes cites missing files, what `d` quotes does not, and `e` cites a line too many before it gets to a missing file. -/
def incompleteTree : Tree :=
  ⟨[], .file "a".toList (Charset.Utf8.encode "[b]\n".toList)
    (.file "b".toList (Charset.Utf8.encode "[c] [gone] [lost]\n".toList)
      (.file "c".toList (Charset.Utf8.encode "x\n".toList)
        (.file "d".toList (Charset.Utf8.encode "[c]\n".toList)
          (.file "e".toList (Charset.Utf8.encode "[d] [c:2] [gone]\n".toList) .empty))))⟩

theorem resolveFile_strict_in_incompleteTree :
    let config : Config := { recursive := true }
    let strictly := fun (name : String) => (resolveFile incompleteTree config.strict Path.here (Path.ofText name.toList)).outcome
    let leniently := fun (name : String) => (resolveFile incompleteTree config.lenient Path.here (Path.ofText name.toList)).outcome
    (leniently "a" = .ok ⟨Path.ofText "a".toList, ["x [gone] [lost]".toList], true, 2, ["[gone]".toList, "[lost]".toList]⟩ ∧
        ∃ c, Citation.parseMarker "[gone]".toList = .ok c ∧ strictly "a" =
          .error (.citation ⟨.unresolved "[gone]".toList (Path.ofText c.ref), some (Path.ofText "a".toList)⟩)) ∧
      strictly "d" = .ok ⟨Path.ofText "d".toList, ["x".toList], true, 1, []⟩ ∧
      strictly "e" = .error (.citation ⟨.lineOutOfRange "c".toList 2 1, some (Path.ofText "e".toList)⟩) := by
  intro config strictly leniently
  have hnested : leniently "a" =
      .ok ⟨Path.ofText "a".toList, ["x [gone] [lost]".toList], true, 2, ["[gone]".toList, "[lost]".toList]⟩ := by
    decide +kernel
  have hfirst := (resolveFile_strict_iff incompleteTree config Path.here (Path.ofText "a".toList)).2.1
  have hsame := (resolveFile_strict_iff incompleteTree config Path.here (Path.ofText "d".toList)).1
  have hbefore := (resolveFile_strict_iff incompleteTree config Path.here (Path.ofText "e".toList)).2.2
  exact ⟨⟨hnested, hfirst _ _ _ hnested rfl⟩, (hsame _).2 ⟨by decide +kernel, rfl⟩,
    hbefore _ (by decide +kernel) (by decide +kernel)⟩

end Quotation
