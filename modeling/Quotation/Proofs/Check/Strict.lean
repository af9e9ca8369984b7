import Quotation.Proofs.Check.Findings
import Quotation.Proofs.Resolution.Nesting

/-!
# Clean checks and strict runs

Checking passes over citations of missing files that do not look like paths, so that brackets in prose stay quiet. Resolving strictly fails at them too, and this is the only citation error that a file without issues can be left with: the first citation of a missing file is raised. Where there is none, the file is resolved, unless the margin for quotes cannot be made (`resolveFile_of_clean_check`).
-/

namespace Quotation

open Outcome

/-- The marker is a citation of a missing file by something that does not look like a path. -/
structure PassesUnseen (t : Tree) (ctx : Context) (body : Text) (c : Citation) : Prop where
  parse : Citation.parse body = .ok c
  missing : ctx.locate t c.ref = .ok none
  shape : Citation.looksLikePath c.ref = false

/-- What resolving strictly fails with at a marker about which there is nothing to report. -/
inductive StrictlyFails (t : Tree) (config : Config) (ctx : Context) (body : Text) : Option Failure → Prop where
  | never (seen : ∀ c, ¬ PassesUnseen t ctx body c) : StrictlyFails t config ctx body none
  | unseen {c : Citation} (h : PassesUnseen t ctx body c) :
      StrictlyFails t config ctx body (some (CitationError.unresolved (Segment.marker body).toText (Path.ofText c.ref)).failure)
  | margin {fault : Fault} (seen : ∀ c, ¬ PassesUnseen t ctx body c) (h : config.checkMargin = .error fault) :
      StrictlyFails t config ctx body (some (.fault fault))

variable {t : Tree} {config : Config} {descend : Descent} {ctx : Context} {lines : List Text} {body : Text} {c : Citation}
  {base file : Path} {complaint : Complaint} {reading : Reading}

/-! ### One marker -/

theorem failure?_resolveSegment (hflat : ctx.recursive = false) :
    failure? (resolveSegment t config descend ctx (.marker body)).outcome = ownFailure? t config ctx body := by
  rw [resolveSegment, Traced.outcome_bind, Traced.outcome_lift, ownFailure?]
  cases Reading.ofBody t ctx body with
  | error fault => rfl
  | ok reading =>
    change failure? (resolveReading t config descend ctx (Segment.marker body).toText reading).outcome = _
    cases reading with
    | prose => rfl
    | faulty token reason => rfl
    | dangling c => rw [resolveReading]; cases config.failOnUnresolved <;> rfl
    | found c target => exact failure?_found t config descend ctx c target _ hflat

theorem PassesUnseen.ofBody (h : PassesUnseen t ctx body c) : Reading.ofBody t ctx body = .ok (.dangling c) := by
  rw [Reading.ofBody, h.parse]
  dsimp only
  rw [Reading.ofCitation, h.missing]
  rfl

theorem strictlyFails_of_problem? (hstrict : config.failOnUnresolved = true) (hreading : Reading.ofBody t ctx body = .ok reading)
    (hnone : Check.problem? t config reading = .ok none) :
    StrictlyFails t config ctx body (ownFailure? t config ctx body) := by
  have hseen : (∀ c, reading ≠ .dangling c) → ∀ c, ¬ PassesUnseen t ctx body c := fun hother c hunseen =>
    hother c (Except.ok.inj (hreading.symm.trans hunseen.ofBody))
  rw [ownFailure?, hreading]
  obtain rfl | ⟨c, rfl, hshape⟩ | ⟨c, target, quote, rfl, hquote⟩ := Check.cases_of_problem?_none hnone
  · exact .never (hseen (by simp))
  · obtain ⟨hparse, hmissing⟩ := Reading.describes_of_ofBody hreading
    simp only [hstrict, if_true]
    exact .unseen ⟨hparse, hmissing, hshape⟩
  · dsimp only
    rw [Reading.failure?, hquote]
    cases hmargin : config.checkMargin with
    | ok _ => exact .never (hseen (by simp))
    | error fault => exact .margin (hseen (by simp)) hmargin

/-! ### Files -/

theorem strictlyFails_of_clean_check (hstrict : config.failOnUnresolved = true) (hclean : checkFile t config base file = .ok []) :
    ∃ lines, t.citedLines config.encoding (base.within file) = .ok lines ∧ ∀ body ∈ lines.flatMap Segment.markers,
      StrictlyFails t config { baseDir := base, citingFile := base.within file } body
        (ownFailure? t config { baseDir := base, citingFile := base.within file } body) := by
  cases hlines : t.citedLines config.encoding (base.within file) with
  | error failure =>
    rw [checkFile, hlines] at hclean
    cases failure <;> cases hclean
  | ok lines =>
    refine ⟨lines, rfl, fun body hbody => ?_⟩
    rw [← Segment.map_snd_numberedMarkers 1 lines] at hbody
    obtain ⟨marker, hmarker, rfl⟩ := List.mem_map.1 hbody
    obtain ⟨found, hfinding, hissues⟩ := Check.exists_finding_of_ok hlines hclean hmarker
    obtain ⟨reading, problem, hreading, hproblem, rfl⟩ := Check.exists_problem_of_finding? hfinding
    obtain rfl : problem = none := by
      cases problem with
      | none => rfl
      | some message => simpa using hissues _ rfl
    exact strictlyFails_of_problem? hstrict hreading hproblem

/-- Where quotes are not followed, a file fails to be resolved with the first of its markers that fails by itself. -/
theorem failure?_resolveFile_of_not_recursive (hflat : config.recursive = false)
    (hlines : t.citedLines config.encoding (base.within file) = .ok lines) :
    failure? (resolveFile t config base file).outcome =
      ((lines.flatMap Segment.markers).findSome? fun body =>
        ownFailure? t config { baseDir := base, citingFile := base.within file } body).map (Failure.inFile (base.within file)) := by
  rw [failure?_resolveFile_of_lines hlines, failure?_resolveLines_eq, hflat]
  refine congrArg (Option.map _) (congrFun (congrArg List.findSome? (funext fun body => ?_)) _)
  exact failure?_resolveSegment rfl

/-- After a clean check, resolving strictly raises the first citation of a missing file, which does not look like a path, and no other citation error. Without such a citation the file is resolved, as long as the margin for quotes can be made. -/
theorem resolveFile_of_clean_check (hflat : config.recursive = false) (hstrict : config.failOnUnresolved = true)
    (hclean : checkFile t config base file = .ok []) :
    ∃ lines, t.citedLines config.encoding (base.within file) = .ok lines ∧
      (∀ complaint, (resolveFile t config base file).outcome = .error (.citation complaint) →
        ∃ earlier body later c, lines.flatMap Segment.markers = earlier ++ body :: later ∧
          (∀ other ∈ earlier, ∀ c, ¬ PassesUnseen t { baseDir := base, citingFile := base.within file } other c) ∧
          PassesUnseen t { baseDir := base, citingFile := base.within file } body c ∧
          complaint = ⟨.unresolved (Segment.marker body).toText (Path.ofText c.ref), some (base.within file)⟩) ∧
      (config.checkMargin = .ok () →
        ((∃ resolved, (resolveFile t config base file).outcome = .ok resolved) ↔
          ∀ body ∈ lines.flatMap Segment.markers, ∀ c,
            ¬ PassesUnseen t { baseDir := base, citingFile := base.within file } body c)) := by
  obtain ⟨lines, hlines, hmarkers⟩ := strictlyFails_of_clean_check hstrict hclean
  have hfirst := failure?_resolveFile_of_not_recursive hflat hlines
  refine ⟨lines, hlines, fun complaint hcomplaint => ?_, fun hmargin => ⟨?_, fun hseen => ?_⟩⟩
  · rw [hcomplaint, failure?_error, eq_comm, Option.map_eq_some_iff] at hfirst
    obtain ⟨own, hown, hcomplaint⟩ := hfirst
    obtain ⟨earlier, body, later, hsplit, hbody, hearlier⟩ := List.findSome?_eq_some_iff.1 hown
    have hfails := hmarkers body (by simp [hsplit])
    rw [hbody] at hfails
    cases hfails with
    | margin _ _ => cases hcomplaint
    | @unseen c hunseen =>
      refine ⟨earlier, body, later, c, hsplit, fun other hother c hunseen => ?_, hunseen, (Failure.citation.inj hcomplaint).symm⟩
      have hnone := hmarkers other (by simp [hsplit, hother])
      rw [hearlier other hother] at hnone
      cases hnone with
      | never hseen => exact hseen c hunseen
  · rintro ⟨resolved, hresolved⟩ body hbody c hunseen
    rw [hresolved, failure?_ok, eq_comm, Option.map_eq_none_iff, List.findSome?_eq_none_iff] at hfirst
    have hfails := hmarkers body hbody
    rw [hfirst body hbody] at hfails
    cases hfails with
    | never hseen => exact hseen c hunseen
  · cases houtcome : (resolveFile t config base file).outcome with
    | ok resolved => exact ⟨resolved, rfl⟩
    | error failure =>
      rw [houtcome, failure?_error, eq_comm, Option.map_eq_some_iff] at hfirst
      obtain ⟨own, hown, -⟩ := hfirst
      obtain ⟨body, hbody, hown⟩ := List.exists_of_findSome?_eq_some hown
      have hfails := hmarkers body hbody
      rw [hown] at hfails
      cases hfails with
      | margin _ hfault => cases hmargin.symm.trans hfault
      | unseen hunseen => exact absurd hunseen (hseen body hbody _)

def tickedTree : Tree :=
  ⟨[], .file "a".toList (Charset.Utf8.encode "[d]\n".toList) (.file "d".toList (Charset.Utf8.encode "[x] y\n".toList) .empty)⟩

theorem resolveFile_of_clean_check_in_tickedTree :
    (∃ resolved, (resolveFile tickedTree { failOnUnresolved := true } Path.here (Path.ofText "a".toList)).outcome = .ok resolved) ∧
      ∃ body c, PassesUnseen tickedTree { baseDir := Path.here, citingFile := Path.ofText "d".toList } body c ∧
        (resolveFile tickedTree { failOnUnresolved := true } Path.here (Path.ofText "d".toList)).outcome =
          .error (.citation ⟨.unresolved (Segment.marker body).toText (Path.ofText c.ref), some (Path.ofText "d".toList)⟩) := by
  have hquoting : checkFile tickedTree { failOnUnresolved := true } Path.here (Path.ofText "a".toList) = .ok [] := by decide +kernel
  have hticked : checkFile tickedTree { failOnUnresolved := true } Path.here (Path.ofText "d".toList) = .ok [] := by decide +kernel
  have hread : tickedTree.citedLines (some "utf-8".toList) (Path.ofText "a".toList) = .ok ["[d]".toList] := by decide +kernel
  have hraised : (resolveFile tickedTree { failOnUnresolved := true } Path.here (Path.ofText "d".toList)).outcome =
      .error (.citation ⟨.unresolved "[x]".toList (Path.ofText "x".toList), some (Path.ofText "d".toList)⟩) := by decide +kernel
  constructor
  · obtain ⟨lines, hlines, -, hresolved⟩ := resolveFile_of_clean_check rfl rfl hquoting
    obtain rfl := Except.ok.inj (hread.symm.trans hlines)
    refine (hresolved rfl).2 fun body hbody c hunseen => ?_
    have hmarkers : ["[d]".toList].flatMap Segment.markers = ["d".toList] := by decide +kernel
    have hfound : Reading.ofBody tickedTree { baseDir := Path.here, citingFile := Path.ofText "a".toList } "d".toList =
        .ok (.found ⟨"d".toList, .whole⟩ (Path.ofText "d".toList)) := by decide +kernel
    obtain rfl := List.mem_singleton.1 (hmarkers ▸ hbody)
    cases hfound.symm.trans hunseen.ofBody
  · obtain ⟨lines, -, hfirst, -⟩ := resolveFile_of_clean_check rfl rfl hticked
    obtain ⟨_, body, _, c, -, -, hunseen, hcomplaint⟩ := hfirst _ hraised
    exact ⟨body, c, hunseen, by rw [hraised, hcomplaint]; rfl⟩

/-- A box to tick is no issue, and resolving strictly takes it for a citation. -/
theorem exists_citation_error_after_clean_check :
    checkFile tickedTree { failOnUnresolved := true } Path.here (Path.ofText "d".toList) = .ok [] ∧
      (resolveFile tickedTree { failOnUnresolved := true } Path.here (Path.ofText "d".toList)).outcome =
        .error (.citation ⟨.unresolved "[x]".toList (Path.ofText "x".toList), some (Path.ofText "d".toList)⟩) := by
  exact ⟨by decide +kernel, by decide +kernel⟩

end Quotation
