import Quotation.Proofs.Resolution.Outcome
import Quotation.Proofs.Tree.Reading
import Quotation.Resolution.Document

/-!
# The failure that resolving ends with

Text between markers is copied and cannot fail. So resolving a line fails with the first of its markers that fails (`failure?_resolveLine`), and resolving a file with the first of all its markers (`failure?_resolveFile`). What a single marker can fail with depends on what it turns out to be (`Reading.describes_of_ofBody`, `failure?_resolveReading`).
-/

namespace Quotation

open Outcome

/-! ### Markers -/

namespace Segment

def body? : Segment → Option Text
  | .text _ => none
  | .marker body => some body

/-- The markers of a line from left to right, without their brackets. -/
def markers (line : Text) : List Text := (split line).filterMap body?

/-- The markers of lines in the order in which they stand, each with the number of its line; the first line has the number `start`. -/
def numberedMarkers (start : Nat) (lines : List Text) : List (Nat × Text) :=
  (lines.zipIdx start).flatMap fun (line, number) => (markers line).map fun body => (number, body)

theorem numberedMarkers_cons (start : Nat) (line : Text) (rest : List Text) :
    numberedMarkers start (line :: rest) =
      (markers line).map (fun body => (start, body)) ++ numberedMarkers (start + 1) rest := by
  simp [numberedMarkers, List.zipIdx_cons]

end Segment

/-! ### What a marker turns out to be -/

/-- What has to be the case for a marker to turn out as a reading says. -/
def Reading.Describes (t : Tree) (ctx : Context) (body : Text) : Reading → Prop
  | .prose => (∃ token reason, Citation.parse body = .error (.malformed token reason)) ∧ ctx.locate t (Citation.refOf body) = .ok none
  | .faulty token reason =>
    Citation.parse body = .error (.malformed token reason) ∧ ∃ target, ctx.locate t (Citation.refOf body) = .ok (some target)
  | .dangling c => Citation.parse body = .ok c ∧ ctx.locate t c.ref = .ok none
  | .found c target => Citation.parse body = .ok c ∧ ctx.locate t c.ref = .ok (some target)

/-- What resolving fails with at a marker, where a missing file is let pass and quotes are not followed. -/
def Reading.failure? (t : Tree) (config : Config) : Reading → Option Failure
  | .prose => none
  | .faulty token reason => some (CitationError.malformed token reason).failure
  | .dangling _ => none
  | .found c target =>
    (Outcome.failure? (t.excerpt config.encoding c target)).or ((Outcome.failure? config.checkMargin).map .fault)

theorem Reading.describes_of_ofBody {t : Tree} {ctx : Context} {body : Text} {reading : Reading}
    (h : ofBody t ctx body = .ok reading) : reading.Describes t ctx body := by
  rw [ofBody] at h
  split at h
  · next c hparse =>
    obtain ⟨found, hlocate, rfl⟩ := map_eq_ok_iff.1 h
    cases found <;> exact ⟨hparse, hlocate⟩
  · cases h
  · next token reason hparse =>
    obtain ⟨found, hlocate, rfl⟩ := map_eq_ok_iff.1 h
    cases found with
    | none => exact ⟨⟨token, reason, hparse⟩, hlocate⟩
    | some target => exact ⟨hparse, target, hlocate⟩

theorem Context.citingDir_of_read {t : Tree} {ctx : Context} {content : Bytes} (h : t.read ctx.citingFile = .ok content) :
    ctx.citingDir t = .ok ctx.citingFile.parent := by
  rw [citingDir, Tree.isDir_of_read h]
  rfl

theorem Context.exists_locate {t : Tree} {ctx : Context} {found : Bool} (h : t.isDir ctx.citingFile = .ok found) (ref : Text) :
    ∃ target, ctx.locate t ref = .ok target := by
  rw [locate, candidates]
  split
  · exact ⟨_, rfl⟩
  · rw [citingDir, h]
    cases found <;> exact ⟨_, rfl⟩

/-- The only fault in finding out what a marker is there is a number of too many digits. -/
theorem Reading.tooManyDigits_of_ofBody {t : Tree} {ctx : Context} {body : Text} {found : Bool} {fault : Fault}
    (h : t.isDir ctx.citingFile = .ok found) (hfault : ofBody t ctx body = .error fault) :
    ∃ count, Citation.parse body = .error (.tooManyDigits count) ∧ fault = .tooManyDigits count := by
  rw [ofBody] at hfault
  split at hfault
  · next c _ =>
    obtain ⟨target, htarget⟩ := Context.exists_locate h c.ref
    rw [ofCitation, htarget] at hfault
    cases hfault
  · next count hparse => exact ⟨count, hparse, (Except.error.inj hfault).symm⟩
  · obtain ⟨target, htarget⟩ := Context.exists_locate h (Citation.refOf body)
    rw [htarget] at hfault
    cases hfault

theorem Reading.exists_ofBody {t : Tree} {ctx : Context} {body : Text} {found : Bool} (h : t.isDir ctx.citingFile = .ok found)
    (hfit : ∀ count, Citation.parse body ≠ .error (.tooManyDigits count)) : ∃ reading, ofBody t ctx body = .ok reading := by
  cases hbody : ofBody t ctx body with
  | ok reading => exact ⟨reading, rfl⟩
  | error fault =>
    obtain ⟨count, hparse, -⟩ := tooManyDigits_of_ofBody h hbody
    exact absurd hparse (hfit count)

/-! ### What fails first -/

theorem Segment.findSome?_split {α : Type} {f : Segment → Option α} (htext : ∀ content, f (.text content) = none) (line : Text) :
    (split line).findSome? f = (markers line).findSome? fun body => f (.marker body) := by
  rw [markers]
  induction split line with
  | nil => rfl
  | cons segment rest ih =>
    cases segment with
    | text content => simpa [List.filterMap_cons, body?, htext] using ih
    | marker body => simp [body?, ih, List.findSome?_cons]

section

variable (t : Tree) (config : Config) (descend : Descent) (ctx : Context)

theorem failure?_resolveLine (line : Text) :
    failure? (resolveLine t config descend ctx line).outcome =
      (Segment.markers line).findSome? fun body => failure? (resolveSegment t config descend ctx (.marker body)).outcome := by
  rw [resolveLine, Traced.outcome_map, failure?_map, Traced.outcome_mapM, failure?_mapM, Segment.findSome?_split fun _ => rfl]

theorem failure?_resolveLines (start : Nat) (lines : List Text) :
    failure? (lines.mapM (resolveLine t config descend ctx)).outcome =
      (Segment.numberedMarkers start lines).findSome? fun marker =>
        failure? (resolveSegment t config descend ctx (.marker marker.2)).outcome := by
  rw [Traced.outcome_mapM, failure?_mapM]
  induction lines generalizing start with
  | nil => rfl
  | cons line rest ih =>
    rw [List.findSome?_cons, Segment.numberedMarkers_cons, List.findSome?_append, List.findSome?_map, ← ih (start + 1),
      failure?_resolveLine]
    cases hline : (Segment.markers line).findSome? fun body => failure? (resolveSegment t config descend ctx (.marker body)).outcome
    · simp [Function.comp_def, hline]
    · simp [Function.comp_def, hline]

theorem failure?_found (c : Citation) (target : Path) (marker : Text) (hrecursive : ctx.recursive = false) :
    failure? (resolveReading t config descend ctx marker (.found c target)).outcome =
      Reading.failure? t config (.found c target) := by
  simp only [resolveReading, hrecursive, Traced.outcome_bind, Config.layOut, Reading.failure?]
  cases t.excerpt config.encoding c target <;> cases config.checkMargin <;> simp [Except.map, Except.mapError]

theorem failure?_resolveReading (reading : Reading) (marker : Text) (hrecursive : ctx.recursive = false)
    (hlenient : config.failOnUnresolved = false) :
    failure? (resolveReading t config descend ctx marker reading).outcome = reading.failure? t config := by
  cases reading with
  | prose => rfl
  | faulty token reason => rfl
  | dangling c => simp [resolveReading, hlenient, Traced.outcome_map, Reading.failure?]
  | found c target => exact failure?_found t config descend ctx c target marker hrecursive

end

theorem failure?_resolveFile_of_lines {t : Tree} {config : Config} {base file : Path} {lines : List Text}
    (h : t.citedLines config.encoding (base.within file) = .ok lines) :
    failure? (resolveFile t config base file).outcome =
      (failure? (lines.mapM (resolveLine t config (resolveNested t config)
        { baseDir := base, citingFile := base.within file, recursive := config.recursive })).outcome).map
        (Failure.inFile (base.within file)) := by
  have hbody : failure? (resolveSource t config base (base.within file)).outcome = failure? (lines.mapM (resolveLine t config
      (resolveNested t config) { baseDir := base, citingFile := base.within file, recursive := config.recursive })).outcome := by
    rw [resolveSource, Traced.outcome_bind, Traced.outcome_lift, h]
    dsimp only
    rw [Traced.outcome_bind]
    cases (lines.mapM _ : Traced (List Text)).outcome <;> rfl
  rw [← hbody, resolveFile, failure?_mapError, failure?_map]

/-- Resolving a file that can be read fails with the first of its markers that fails, named after the file. -/
theorem failure?_resolveFile {t : Tree} {config : Config} {base file : Path} {lines : List Text}
    (h : t.citedLines config.encoding (base.within file) = .ok lines) :
    failure? (resolveFile t config base file).outcome =
      ((Segment.numberedMarkers 1 lines).findSome? fun marker =>
        failure? (resolveSegment t config (resolveNested t config)
          { baseDir := base, citingFile := base.within file, recursive := config.recursive } (.marker marker.2)).outcome).map
        (Failure.inFile (base.within file)) := by
  rw [failure?_resolveFile_of_lines h, failure?_resolveLines]

end Quotation
