import Quotation.Citation.Basic
import Quotation.Fault
import Quotation.Path

/-!
# Citation errors

What can be wrong with a citation or with a file that takes part in one. A run can report such an error and go on with other files.
-/

namespace Quotation

inductive ReadFlaw where
  | os (e : OsError) (opened : Path)
  | decoding (e : Charset.DecodeError)
  /-- A cause in words of the caller's own. -/
  | stated (words : Text)
  deriving DecidableEq, Repr

def ReadFlaw.message : ReadFlaw → String
  | .os e opened => s!"{e.message}: {String.ofList (Text.quoted opened.toText)}"
  | .decoding e => e.message
  | .stated words => String.ofList words

/-- What is wrong with a citation or with a file that takes part in one. -/
inductive CitationError where
  | unspecified
  | malformed (token : Text) (reason : Malformed)
  | lineOutOfRange (target : Text) (line lineCount : Int)
  | invalidRange (target : Text) (first last : Int)
  | patternNotFound (target wanted : Text)
  | tooDeep (marker : Text) (maxDepth : Int)
  | unresolved (marker : Text) (target : Path)
  | unreadable (target : Path) (flaw : ReadFlaw)
  deriving DecidableEq, Repr

namespace CitationError

def kind : CitationError → String
  | .unspecified => "CitationError"
  | .malformed .. => "MalformedCitationError"
  | .lineOutOfRange .. => "LineOutOfRangeError"
  | .invalidRange .. => "InvalidRangeError"
  | .patternNotFound .. => "PatternNotFoundError"
  | .tooDeep .. => "RecursionLimitExceededError"
  | .unresolved .. => "UnresolvedCitationError"
  | .unreadable .. => "UnreadableFileError"

/-- The error in words, without the file it surfaced in. -/
def describe : CitationError → String
  | .unspecified => "Citation could not be resolved"
  | .malformed token reason => s!"Malformed citation [{String.ofList token}]: {reason.message}"
  | .lineOutOfRange target line lineCount =>
    s!"Line {line} out of range for {String.ofList target} ({lineCount} lines)"
  | .invalidRange target first last => s!"Invalid range {first}:{last} for {String.ofList target}"
  | .patternNotFound target wanted =>
    s!"Pattern not found in {String.ofList target}: {String.ofList (Text.quoted wanted)}"
  | .tooDeep marker maxDepth => s!"Citation nesting deeper than {maxDepth} levels at {String.ofList marker}"
  | .unresolved marker target => s!"Cited file not found for {String.ofList marker}: {target.render}"
  | .unreadable target flaw => s!"Cannot read {target.render} as text: {flaw.message}"

end CitationError

end Quotation
