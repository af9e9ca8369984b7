import Mathlib.Data.List.ReduceOption
import Quotation.Check
import Quotation.Proofs.Resolution.FirstFailure

/-!
# What checking finds

Checking a file walks over its markers and finds an issue or nothing about each of them (`Check.finding?`). Nothing that is found gets lost (`Check.exists_finding_of_ok`), and checking ends with a fault only if it does so at a marker (`Check.exists_finding_of_error`). What can go wrong there is little: a number of too many digits, or a quote that cannot be taken (`Check.cause_of_finding?`).
-/

namespace Quotation

open Outcome

namespace Check

/-- What checking finds about a marker, which comes with the number of its line. -/
def finding? (t : Tree) (config : Config) (ctx : Context) (marker : Nat × Text) : Except Fault (Option Issue) :=
  issue? t config ctx marker.1 (.marker marker.2)

variable {t : Tree} {config : Config} {ctx : Context} {start number : Nat} {line : Text} {lines : List Text}
  {marker : Nat × Text} {reading : Reading} {fault : Fault} {issue : Issue} {issues : List Issue} {base file : Path}

/-! ### One marker -/

theorem finding?_of_ofBody (hreading : Reading.ofBody t ctx marker.2 = .ok reading) :
    finding? t config ctx marker = (problem? t config reading).map
      (Option.map fun message => ⟨ctx.citingFile.toText, marker.1, (Segment.marker marker.2).toText, message⟩) := by
  rw [finding?, issue?, hreading]
  change (problem? t config reading >>= fun problem => pure _) = _
  cases problem? t config reading <;> rfl

theorem exists_problem_of_finding? {found : Option Issue} (h : finding? t config ctx marker = .ok found) :
    ∃ reading problem, Reading.ofBody t ctx marker.2 = .ok reading ∧ problem? t config reading = .ok problem ∧
      found = problem.map fun message => ⟨ctx.citingFile.toText, marker.1, (Segment.marker marker.2).toText, message⟩ := by
  rw [finding?, issue?] at h
  obtain ⟨reading, hreading, h⟩ := bind_eq_ok_iff.1 h
  obtain ⟨problem, hproblem, h⟩ := bind_eq_ok_iff.1 h
  exact ⟨reading, problem, hreading, hproblem, (Except.ok.inj h).symm⟩

theorem finding?_of_fault (h : Reading.ofBody t ctx marker.2 = .error fault) : finding? t config ctx marker = .error fault := by
  rw [finding?, issue?, h]
  rfl

theorem exists_found_of_problem? (h : problem? t config reading = .error fault) :
    ∃ c target, reading = .found c target ∧ t.excerpt config.encoding c target = .error (.fault fault) := by
  cases reading with
  | prose => cases h
  | faulty token reason => cases h
  | dangling c => cases h
  | found c target =>
    refine ⟨c, target, rfl, ?_⟩
    rw [problem?] at h
    split at h
    · cases h
    · cases h
    · next hexcerpt => rw [hexcerpt, Except.error.inj h]

/-- There is nothing to report about a marker that is prose, that is quoted, or that names a missing file by something that does not look like a path. -/
theorem cases_of_problem?_none (h : problem? t config reading = .ok none) :
    reading = .prose ∨ (∃ c, reading = .dangling c ∧ Citation.looksLikePath c.ref = false) ∨
      ∃ c target quote, reading = .found c target ∧ t.excerpt config.encoding c target = .ok quote := by
  cases reading with
  | prose => exact Or.inl rfl
  | faulty token reason => cases h
  | dangling c =>
    have hshape : Citation.looksLikePath c.ref = false := by simpa [problem?] using h
    exact Or.inr (Or.inl ⟨c, rfl, hshape⟩)
  | found c target =>
    rw [problem?] at h
    split at h
    · next quote hexcerpt => exact Or.inr (Or.inr ⟨c, target, quote, rfl, hexcerpt⟩)
    · cases h
    · cases h

/-- In a file that can be read, checking a marker ends with a fault for a number of too many digits, or for what is cited. -/
theorem cause_of_finding? {content : Bytes} (hread : t.read ctx.citingFile = .ok content)
    (h : finding? t config ctx marker = .error fault) :
    (∃ count, Citation.parse marker.2 = .error (.tooManyDigits count) ∧ fault = .tooManyDigits count) ∨
      ∃ c target, Reading.ofBody t ctx marker.2 = .ok (.found c target) ∧
        t.excerpt config.encoding c target = .error (.fault fault) := by
  cases hreading : Reading.ofBody t ctx marker.2 with
  | error cause =>
    obtain ⟨count, hparse, rfl⟩ := Reading.tooManyDigits_of_ofBody (Tree.isDir_of_read hread) hreading
    rw [finding?_of_fault hreading] at h
    exact Or.inl ⟨count, hparse, (Except.error.inj h).symm⟩
  | ok reading =>
    rw [finding?_of_ofBody hreading] at h
    cases hproblem : problem? t config reading with
    | ok problem => simp [hproblem, Except.map] at h
    | error cause =>
      obtain rfl : cause = fault := by simpa [hproblem, Except.map] using h
      obtain ⟨c, target, rfl, hexcerpt⟩ := exists_found_of_problem? hproblem
      exact Or.inr ⟨c, target, rfl, hexcerpt⟩

/-! ### All markers -/

theorem lineIssues_eq_map (line : Text) :
    lineIssues t config ctx number line = ((Segment.split line).mapM (issue? t config ctx number)).map List.reduceOption := by
  rw [lineIssues]
  cases (Segment.split line).mapM (issue? t config ctx number) <;> rfl

theorem failure?_lineIssues (line : Text) :
    failure? (lineIssues t config ctx number line) =
      (Segment.markers line).findSome? fun body => failure? (finding? t config ctx (number, body)) := by
  rw [lineIssues_eq_map, failure?_map, failure?_mapM, Segment.findSome?_split fun _ => rfl]
  rfl

theorem failure?_issuesFrom (start : Nat) (lines : List Text) :
    failure? (issuesFrom t config ctx start lines) =
      (Segment.numberedMarkers start lines).findSome? fun marker => failure? (finding? t config ctx marker) := by
  induction lines generalizing start with
  | nil => rfl
  | cons line rest ih =>
    rw [issuesFrom, Segment.numberedMarkers_cons, List.findSome?_append, List.findSome?_map, ← ih (start + 1)]
    change _ = ((Segment.markers line).findSome? fun body => failure? (finding? t config ctx (start, body))).or _
    rw [← failure?_lineIssues]
    cases lineIssues t config ctx start line with
    | error cause => rfl
    | ok first => cases issuesFrom t config ctx (start + 1) rest <;> rfl

theorem mem_of_lineIssues {body : Text} (h : lineIssues t config ctx number line = .ok issues)
    (hbody : body ∈ Segment.markers line) (hfinding : finding? t config ctx (number, body) = .ok (some issue)) :
    issue ∈ issues := by
  rw [lineIssues_eq_map] at h
  obtain ⟨findings, hfindings, rfl⟩ := map_eq_ok_iff.1 h
  obtain ⟨segment, hsegment, hmarker⟩ := List.mem_filterMap.1 hbody
  obtain rfl : segment = .marker body := by
    cases segment with
    | text content => cases hmarker
    | marker other => rw [Option.some.inj hmarker]
  exact List.reduceOption_mem_iff.2 (mem_of_mapM hfindings hsegment hfinding)

theorem mem_of_issuesFrom (h : issuesFrom t config ctx start lines = .ok issues)
    (hmarker : marker ∈ Segment.numberedMarkers start lines) (hfinding : finding? t config ctx marker = .ok (some issue)) :
    issue ∈ issues := by
  induction lines generalizing start issues with
  | nil => cases hmarker
  | cons line rest ih =>
    rw [issuesFrom] at h
    obtain ⟨first, hfirst, h⟩ := bind_eq_ok_iff.1 h
    obtain ⟨others, hothers, h⟩ := bind_eq_ok_iff.1 h
    obtain rfl := Except.ok.inj h
    rw [Segment.numberedMarkers_cons] at hmarker
    obtain hmarker | hmarker := List.mem_append.1 hmarker
    · obtain ⟨body, hbody, rfl⟩ := List.mem_map.1 hmarker
      exact List.mem_append_left _ (mem_of_lineIssues hfirst hbody hfinding)
    · exact List.mem_append_right _ (ih hothers hmarker)

/-! ### Files -/

theorem checkFile_of_citedLines (hlines : t.citedLines config.encoding (base.within file) = .ok lines) :
    checkFile t config base file = issuesFrom t config { baseDir := base, citingFile := base.within file } 1 lines := by
  rw [checkFile, hlines]

theorem exists_finding_of_error (hlines : t.citedLines config.encoding (base.within file) = .ok lines)
    (h : checkFile t config base file = .error fault) :
    ∃ marker ∈ Segment.numberedMarkers 1 lines,
      finding? t config { baseDir := base, citingFile := base.within file } marker = .error fault := by
  rw [checkFile_of_citedLines hlines, ← failure?_eq_some_iff, failure?_issuesFrom] at h
  obtain ⟨marker, hmarker, hfinding⟩ := List.exists_of_findSome?_eq_some h
  exact ⟨marker, hmarker, failure?_eq_some_iff.1 hfinding⟩

/-- Checking a file finds something or nothing about each of its markers, and what it finds is among its issues. -/
theorem exists_finding_of_ok (hlines : t.citedLines config.encoding (base.within file) = .ok lines)
    (h : checkFile t config base file = .ok issues) (hmarker : marker ∈ Segment.numberedMarkers 1 lines) :
    ∃ found, finding? t config { baseDir := base, citingFile := base.within file } marker = .ok found ∧
      ∀ issue ∈ found, issue ∈ issues := by
  rw [checkFile_of_citedLines hlines] at h
  have hnone : failure? (issuesFrom t config { baseDir := base, citingFile := base.within file } 1 lines) = none := by
    rw [h, failure?_ok]
  rw [failure?_issuesFrom, List.findSome?_eq_none_iff] at hnone
  cases hfinding : finding? t config { baseDir := base, citingFile := base.within file } marker with
  | error cause => simpa [hfinding] using hnone marker hmarker
  | ok found =>
    refine ⟨found, rfl, fun issue hissue => ?_⟩
    obtain rfl := Option.mem_def.1 hissue
    exact mem_of_issuesFrom h hmarker hfinding

end Check

end Quotation
