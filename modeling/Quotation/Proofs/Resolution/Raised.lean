import Quotation.Proofs.Resolution.Nesting

/-!
# Where failures are raised

A file that can be read fails to be resolved for one of the markers that resolving meets (`exists_raisedAt_of_resolveFile`): the marker fails by itself, or it stands as deep as citations may be followed and its quote has markers again. Conversely, the file fails with whatever a marker that is met fails with before its quote is followed (`resolveFile_of_meetsIn`).
-/

namespace Quotation

open Outcome

variable {t : Tree} {config : Config} {descend : Descent} {ctx inner : Context} {lines : List Text} {body : Text}
  {failure : Failure} {budget : Nat} {base file : Path}

theorem outcome_resolveSegment_of_fault {fault : Fault} (descend : Descent) (h : Reading.ofBody t ctx body = .error fault) :
    (resolveSegment t config descend ctx (.marker body)).outcome = .error (.fault fault) := by
  rw [resolveSegment, Traced.outcome_bind, Traced.outcome_lift, h]
  rfl

theorem outcome_resolveSegment_of_excerpt {c : Citation} {target : Path} (descend : Descent)
    (hfound : Reading.ofBody t ctx body = .ok (.found c target)) (h : t.excerpt config.encoding c target = .error failure) :
    (resolveSegment t config descend ctx (.marker body)).outcome = .error failure := by
  simp [resolveSegment, hfound, resolveReading, Traced.outcome_bind, h, Except.mapError]

/-- In a file that can be read, a marker ends a run by itself for a number of too many digits, for the margin, or for what is cited. -/
theorem cause_of_ownFailure?_fault {content : Bytes} {fault : Fault} (hread : t.read ctx.citingFile = .ok content)
    (h : ownFailure? t config ctx body = some (.fault fault)) :
    (∃ count, Citation.parse body = .error (.tooManyDigits count) ∧ fault = .tooManyDigits count) ∨
      config.checkMargin = .error fault ∨
      ∃ c target, Reading.ofBody t ctx body = .ok (.found c target) ∧
        t.excerpt config.encoding c target = .error (.fault fault) := by
  generalize hfailure : Failure.fault fault = failure at h
  cases failsByItself_of_ownFailure? h with
  | unread hunread =>
    obtain rfl := Failure.fault.inj hfailure
    exact Or.inl (Reading.tooManyDigits_of_ofBody (Tree.isDir_of_read hread) hunread)
  | faulty _ => cases hfailure
  | dangling _ _ => cases hfailure
  | excerpt hfound hexcerpt => exact Or.inr (Or.inr ⟨_, _, hfound, hfailure ▸ hexcerpt⟩)
  | margin _ hmargin => exact Or.inr (Or.inl (Failure.fault.inj hfailure ▸ hmargin))

/-! ### Lines -/

theorem error_of_reaches (hreached : Reaches t config descend ctx lines body)
    (h : (resolveSegment t config descend ctx (.marker body)).outcome = .error failure) :
    (lines.mapM (resolveLine t config descend ctx)).outcome = .error failure := by
  obtain ⟨earlier, later, hmarkers, hearlier⟩ := hreached
  rw [← failure?_eq_some_iff, failure?_resolveLines_eq, List.findSome?_eq_some_iff]
  refine ⟨earlier, body, later, hmarkers, failure?_eq_some_iff.2 h, fun other hother => ?_⟩
  obtain ⟨replaced, hreplaced⟩ := hearlier other hother
  rw [hreplaced, failure?_ok]

theorem error_of_meets (hmet : Meets t config budget ctx lines inner body)
    (h : ∀ descend, (resolveSegment t config descend inner (.marker body)).outcome = .error failure) :
    (lines.mapM (resolveLine t config (resolveQuote t config budget) ctx)).outcome = .error failure := by
  induction hmet with
  | here hreached => exact error_of_reaches hreached (h _)
  | nested hreached hread hquote hfollowed _ ih =>
    refine error_of_reaches hreached (outcome_resolveSegment_of_error hread hquote hfollowed.1 hfollowed.2 ?_)
    rw [← failure?_eq_some_iff, failure?_resolveQuote_succ, failure?_eq_some_iff]
    exact ih h

/-! ### Files -/

theorem Failure.inFile_eq_fault_iff {fault : Fault} : failure.inFile file = .fault fault ↔ failure = .fault fault := by
  cases failure with
  | citation complaint => simp [inFile]
  | fault cause => simp [inFile]

/-- What resolving a file fails with is raised at a marker that is met, and then named after the file. -/
theorem exists_raisedAt_of_resolveFile (hlines : t.citedLines config.encoding (base.within file) = .ok lines)
    (h : (resolveFile t config base file).outcome = .error failure) :
    ∃ ctx body own, MeetsIn t config base (base.within file) ctx body ∧ RaisedAt t config ctx body own ∧
      failure = own.inFile (base.within file) := by
  obtain ⟨own, hown, hfailure⟩ := (resolveFile_eq_error_iff hlines).1 h
  obtain ⟨inner, body, hmet, hraised, -⟩ := exists_cause_of_error hown
  exact ⟨inner, body, own, ⟨lines, hlines, hmet⟩, hraised, hfailure.symm⟩

theorem resolveFile_of_meetsIn (hmet : MeetsIn t config base (base.within file) ctx body)
    (h : ∀ descend, (resolveSegment t config descend ctx (.marker body)).outcome = .error failure) :
    (resolveFile t config base file).outcome = .error (failure.inFile (base.within file)) := by
  obtain ⟨lines, hlines, hmet⟩ := hmet
  exact (resolveFile_eq_error_iff hlines).2 ⟨failure, error_of_meets hmet h, rfl⟩

/-- The file that a marker which is met stands in has been read. -/
theorem MeetsIn.exists_read (hmet : MeetsIn t config base (base.within file) ctx body) :
    ∃ content, t.read ctx.citingFile = .ok content := by
  obtain ⟨lines, hlines, hmet⟩ := hmet
  refine hmet.citingFile (P := fun p => ∃ content, t.read p = .ok content) (Tree.exists_read_of_citedLines hlines) ?_
  intro inner body c target _ hfound
  exact Tree.exists_read_of_isFile (Context.isFile_of_locate (Reading.describes_of_ofBody hfound).2)

end Quotation
