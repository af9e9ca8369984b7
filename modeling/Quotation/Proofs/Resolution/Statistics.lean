import Quotation.Proofs.Resolution.Malformed
import Quotation.Proofs.Resolution.Told

/-!
# What the statistics count

A resolved file comes with the number of citations that were quoted and with the markers of missing files. Both account for the markers that are met, those of the lines and those of the quotes that are followed: what is told of them one after the other is counted (`Resolved.Accounts`). The markers that are neither counted nor listed are prose.
-/

namespace Quotation

open Outcome

def citesFile (t : Tree) : Context × Text → Bool
  | (ctx, body) => match Citation.parse body with
    | .ok c => match ctx.locate t c.ref with
      | .ok (some _) => true
      | _ => false
    | .error _ => false

def citesNoFile (t : Tree) : Context × Text → Bool
  | (ctx, body) => match Citation.parse body with
    | .ok c => match ctx.locate t c.ref with
      | .ok none => true
      | _ => false
    | .error _ => false

/-- The marker is malformed and its reference names no file, and it is resolved to itself. -/
structure IsProse (t : Tree) (ctx : Context) (body : Text) : Prop where
  malformed : ∃ reason, Citation.parse body = .error (.malformed body reason)
  missing : ctx.locate t (Citation.refOf body) = .ok none
  stays : ∀ config descend, (resolveSegment t config descend ctx (.marker body)).outcome = .ok (Segment.marker body).toText

/-- The statistics of a resolved file account for the markers, each in its surroundings. -/
structure Resolved.Accounts (t : Tree) (resolved : Resolved) (met : List (Context × Text)) : Prop where
  citations : resolved.citations = met.countP (citesFile t)
  unresolved : resolved.unresolved = (met.filter (citesNoFile t)).map fun (_, body) => (Segment.marker body).toText
  rest : ∀ ctx body, (ctx, body) ∈ met → citesFile t (ctx, body) = false → citesNoFile t (ctx, body) = false → IsProse t ctx body

variable {t : Tree} {config : Config} {ctx : Context} {body : Text} {c : Citation} {target base file : Path} {resolved : Resolved}
  {met : List (Context × Text)} {events : List Event}

/-! ### What a marker turns out to be -/

theorem isProse_of_prose (h : Reading.ofBody t ctx body = .ok .prose) : IsProse t ctx body := by
  obtain ⟨⟨token, reason, hparse⟩, hmissing⟩ := Reading.describes_of_ofBody h
  obtain rfl := Citation.eq_of_parse_eq_malformed hparse
  exact ⟨⟨reason, hparse⟩, hmissing, fun _ descend => by rw [resolveSegment_of_prose descend h]⟩

theorem cites_of_prose (h : Reading.ofBody t ctx body = .ok .prose) :
    citesFile t (ctx, body) = false ∧ citesNoFile t (ctx, body) = false := by
  obtain ⟨⟨token, reason, hparse⟩, -⟩ := Reading.describes_of_ofBody h
  simp [citesFile, citesNoFile, hparse]

theorem cites_of_dangling (h : Reading.ofBody t ctx body = .ok (.dangling c)) :
    citesFile t (ctx, body) = false ∧ citesNoFile t (ctx, body) = true := by
  obtain ⟨hparse, hlocate⟩ := Reading.describes_of_ofBody h
  simp [citesFile, citesNoFile, hparse, hlocate]

theorem cites_of_found (h : Reading.ofBody t ctx body = .ok (.found c target)) :
    citesFile t (ctx, body) = true ∧ citesNoFile t (ctx, body) = false := by
  obtain ⟨hparse, hlocate⟩ := Reading.describes_of_ofBody h
  simp [citesFile, citesNoFile, hparse, hlocate]

/-! ### What is counted -/

theorem citationCount_of_forall₂ (h : List.Forall₂ (IsToldOf t) met events) : citationCount events = met.countP (citesFile t) := by
  induction h with
  | nil => rfl
  | cons htold _ ih =>
    rw [citationCount] at ih ⊢
    cases htold with
    | left prose => simp [ih, cites_of_prose prose]
    | unresolved dangling => simp [ih, cites_of_dangling dangling]
    | cited found => simp [ih, cites_of_found found]

theorem unresolvedMarkers_of_forall₂ (h : List.Forall₂ (IsToldOf t) met events) :
    unresolvedMarkers events = (met.filter (citesNoFile t)).map fun (_, body) => (Segment.marker body).toText := by
  induction h with
  | nil => rfl
  | cons htold _ ih =>
    rw [unresolvedMarkers] at ih ⊢
    cases htold with
    | left prose => simp [ih, cites_of_prose prose]
    | unresolved dangling => simp [ih, cites_of_dangling dangling]
    | cited found => simp [ih, cites_of_found found]

theorem isProse_of_forall₂ (h : List.Forall₂ (IsToldOf t) met events) (hmem : (ctx, body) ∈ met)
    (hfile : citesFile t (ctx, body) = false) (hno : citesNoFile t (ctx, body) = false) : IsProse t ctx body := by
  induction h with
  | nil => cases hmem
  | cons htold _ ih =>
    obtain rfl | hmem := List.mem_cons.1 hmem
    · cases htold with
      | left prose => exact isProse_of_prose prose
      | unresolved dangling => simp [cites_of_dangling dangling] at hno
      | cited found => simp [cites_of_found found] at hfile
    · exact ih hmem

/-- The statistics of a resolved file account for all markers that are met, those of its lines and those of each quote that is followed, each before the markers of its quote. This does not depend on how much deeper than allowed quotes would be followed. -/
theorem statistics_account_for_markers (h : (resolveFile t config base file).outcome = .ok resolved) :
    ∃ lines, t.citedLines config.encoding (base.within file) = .ok lines ∧
      ∀ budget, config.maxDepth.toNat ≤ budget → resolved.Accounts t
        (mayMeet t config budget { baseDir := base, citingFile := base.within file, recursive := config.recursive } lines) := by
  cases hlines : t.citedLines config.encoding (base.within file) with
  | error failure =>
    rw [outcome_resolveFile_of_error hlines] at h
    cases h
  | ok lines =>
    refine ⟨lines, rfl, fun budget hbudget => ?_⟩
    have htold := (tells_resolveFile hlines hbudget).all resolved h
    obtain ⟨both, -, rfl⟩ := map_eq_ok_iff.1 (mapError_eq_ok_iff.1 h)
    refine ⟨?_, ?_, fun ctx body hmem hfile hno => isProse_of_forall₂ htold hmem hfile hno⟩
    · rw [← citationCount_of_forall₂ htold, citationCount_told]
      rfl
    · rw [← unresolvedMarkers_of_forall₂ htold, unresolvedMarkers_told]
      rfl

def layeredTree : Tree :=
  ⟨[], .file "a".toList (Charset.Utf8.encode "[b] [y] [see: below]\n".toList) (.file "b".toList (Charset.Utf8.encode "1\n".toList)
    (.file "d".toList (Charset.Utf8.encode "[a] [x]\n".toList) .empty))⟩

theorem statistics_account_in_layeredTree :
    (mayMeet layeredTree { recursive := true } 10 { baseDir := Path.here, citingFile := Path.ofText "d".toList, recursive := true }
        ["[a] [x]".toList]).map Prod.snd =
      ["a".toList, "b".toList, "y".toList, "see: below".toList, "x".toList] ∧
      Resolved.Accounts layeredTree ⟨Path.ofText "d".toList, ["1 [y] [see: below] [x]".toList], true, 2, ["[y]".toList, "[x]".toList]⟩
        (mayMeet layeredTree { recursive := true } 10 { baseDir := Path.here, citingFile := Path.ofText "d".toList, recursive := true }
          ["[a] [x]".toList]) := by
  have houtcome : (resolveFile layeredTree { recursive := true } Path.here (Path.ofText "d".toList)).outcome =
      .ok ⟨Path.ofText "d".toList, ["1 [y] [see: below] [x]".toList], true, 2, ["[y]".toList, "[x]".toList]⟩ := by decide +kernel
  have hsource : layeredTree.citedLines (some "utf-8".toList) (Path.ofText "d".toList) = .ok ["[a] [x]".toList] := by decide +kernel
  obtain ⟨lines, hlines, haccounts⟩ := statistics_account_for_markers houtcome
  obtain rfl := Except.ok.inj (hsource.symm.trans hlines)
  exact ⟨by decide +kernel, haccounts 10 (by decide)⟩

end Quotation
