import Quotation.Citation.Parser
import Quotation.CitationError

/-!
# Failures

How a computation fails: with a complaint, which is a citation error and the citing file it surfaced in, or with a fault.
-/

namespace Quotation

/-- A citation error with the citing file it surfaced in, once that is known. -/
structure Complaint where
  error : CitationError
  file : Option Path
  deriving DecidableEq, Repr

namespace Complaint

/-- Names the citing file; the first name given stays. -/
def inFile (c : Complaint) (file : Path) : Complaint := { c with file := c.file <|> some file }

def message (c : Complaint) : String :=
  match c.file with
  | some file => s!"{file.render}: {c.error.describe}"
  | none => c.error.describe

end Complaint

inductive Failure where
  | citation (c : Complaint)
  | fault (f : Fault)
  deriving DecidableEq, Repr

/-- A citation error whose file is not known yet. -/
def CitationError.failure (e : CitationError) : Failure := .citation ⟨e, none⟩

/-- A failure to read a citation, as a failure of the whole computation. -/
def Citation.ParseError.failure : Citation.ParseError → Failure
  | .malformed token reason => (CitationError.malformed token reason).failure
  | .tooManyDigits count => .fault (.tooManyDigits count)

end Quotation
