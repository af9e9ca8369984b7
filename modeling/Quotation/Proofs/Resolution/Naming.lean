import Quotation.Proofs.Resolution.Outcome
import Quotation.Resolution.Document

/-!
# The file that a complaint names

Inside a file no complaint says where it surfaced: neither reading, nor taking a quote, nor descending into one names a citing file (`unnamed_resolveSource`). So the name that a complaint leaves with is always that of the file at the top, however deep in its quotes the complaint arose (`file_of_resolveFile`).
-/

namespace Quotation

open Outcome

/-- The failure does not tell yet which citing file it surfaced in. -/
def Failure.Unnamed : Failure → Prop
  | .citation c => c.file = none
  | .fault _ => True

def Unnamed {α : Type} (x : Except Failure α) : Prop := Ends (fun _ => True) Failure.Unnamed x

variable {t : Tree} {config : Config} {ctx : Context} {descend : Descent} {α : Type}

theorem CitationError.unnamed_failure (e : CitationError) : e.failure.Unnamed := rfl

theorem unnamed_mapError_fault (x : Except Fault α) : Unnamed (x.mapError .fault) := by
  cases x with
  | ok a => exact trivial
  | error fault => exact trivial

theorem unnamed_citedLines (encoding : Option Text) (p : Path) : Unnamed (t.citedLines encoding p) := by
  rw [Tree.citedLines]
  cases t.readLines p encoding with
  | ok lines => exact trivial
  | error fault =>
    cases fault with
    | os e => exact CitationError.unnamed_failure _
    | decoding e => exact CitationError.unnamed_failure _
    | _ => exact trivial

theorem unnamed_excerpt (encoding : Option Text) (c : Citation) (target : Path) : Unnamed (t.excerpt encoding c target) := by
  refine (unnamed_citedLines encoding target).bind fun lines _ => ?_
  cases Excerpt.extract lines c with
  | ok quote => exact trivial
  | error e => exact e.unnamed_failure

/-! ### Quotes within quotes -/

theorem unnamed_resolveReading (h : ∀ marker ctx quote, Unnamed (descend marker ctx quote).outcome) (marker : Text)
    (reading : Reading) : Unnamed (resolveReading t config descend ctx marker reading).outcome := by
  cases reading with
  | prose => exact trivial
  | faulty token reason => exact (CitationError.malformed token reason).unnamed_failure
  | dangling c =>
    rw [resolveReading]
    split
    · exact (CitationError.unresolved marker (Path.ofText c.ref)).unnamed_failure
    · exact trivial
  | found c target =>
    have hnote : Unnamed (Traced.note (.cited marker target)).outcome := trivial
    rw [resolveReading]
    refine Traced.ends_bind hnote fun _ _ => ?_
    refine Traced.ends_bind (unnamed_excerpt config.encoding c target) fun quote _ => ?_
    dsimp only
    split
    · exact Traced.ends_bind (h marker _ quote) fun resolved _ => unnamed_mapError_fault (config.layOut resolved)
    · exact unnamed_mapError_fault (config.layOut quote)

theorem unnamed_resolveLine (h : ∀ marker ctx quote, Unnamed (descend marker ctx quote).outcome) (line : Text) :
    Unnamed (resolveLine t config descend ctx line).outcome := by
  have hsegments : ∀ segment ∈ Segment.split line, Unnamed (resolveSegment t config descend ctx segment).outcome := by
    intro segment _
    cases segment with
    | text content => exact trivial
    | marker body =>
      exact Traced.ends_bind (unnamed_mapError_fault (Reading.ofBody t ctx body)) fun reading _ =>
        unnamed_resolveReading h _ reading
  rw [resolveLine, Traced.outcome_map, Traced.outcome_mapM]
  exact (Ends.mapM hsegments).map fun _ _ => trivial

theorem unnamed_resolveQuote (budget : Nat) (marker : Text) (ctx : Context) (quote : Text) :
    Unnamed (resolveQuote t config budget marker ctx quote).outcome := by
  induction budget generalizing marker ctx quote with
  | zero => exact (CitationError.tooDeep marker config.maxDepth).unnamed_failure
  | succ budget ih =>
    have hlines : ∀ line ∈ Text.splitOn '\n' quote,
        Unnamed (resolveLine t config (resolveQuote t config budget) ctx line).outcome := fun line _ => unnamed_resolveLine ih line
    have hnote : Unnamed (Traced.note (.entered ctx.citingFile ctx.depth)).outcome := trivial
    refine Traced.ends_bind hnote fun _ _ => ?_
    rw [resolveLines, Traced.outcome_map, Traced.outcome_mapM]
    exact (Ends.mapM hlines).map fun _ _ => trivial

/-! ### Files -/

theorem unnamed_resolveSource (base source : Path) : Unnamed (resolveSource t config base source).outcome := by
  refine Traced.ends_bind (unnamed_citedLines config.encoding source) fun lines _ => ?_
  have hlines : Unnamed (lines.mapM (resolveLine t config (resolveNested t config)
      { baseDir := base, citingFile := source, recursive := config.recursive })).outcome := by
    rw [Traced.outcome_mapM]
    refine (Ends.mapM fun line _ => unnamed_resolveLine (unnamed_resolveQuote _) line).imp fun _ _ _ => trivial
  exact Traced.ends_bind hlines fun _ _ => trivial

theorem file_of_resolveFile {base file : Path} {complaint : Complaint}
    (h : (resolveFile t config base file).outcome = .error (.citation complaint)) :
    complaint.file = some (base.within file) := by
  have hsource : Unnamed (resolveSource t config base (base.within file)).outcome := unnamed_resolveSource base _
  rw [resolveFile] at h
  cases houtcome : (resolveSource t config base (base.within file)).outcome with
  | ok lines => simp [houtcome, Except.map, Except.mapError] at h
  | error failure =>
    rw [houtcome] at hsource h
    cases failure with
    | fault fault => simp [Except.map, Except.mapError, Failure.inFile] at h
    | citation c =>
      have hc : c.file = none := hsource
      obtain rfl : c.inFile (base.within file) = complaint := by
        simpa [Except.map, Except.mapError, Failure.inFile] using h
      rw [Complaint.inFile, hc]
      rfl

end Quotation
