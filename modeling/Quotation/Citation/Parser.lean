import Quotation.Citation.Basic
import Quotation.Text.Digit

/-!
# Reading citations

The text between the brackets of a marker is cut at the first percent sign into a reference and a pattern, or else at the colons into a reference and up to two line numbers. The reference and the numbers may have blanks around them; the pattern is taken as it stands. Line numbers are runs of ASCII digits, and one with too many digits ends the reading in a way of its own.
-/

namespace Quotation.Citation

inductive ParseError where
  | malformed (token : Text) (reason : Malformed)
  /-- A line number with more digits than can be read. -/
  | tooManyDigits (count : Nat)
  deriving DecidableEq, Repr

/-- Reads a line number; `token` is the text it stands in. -/
def parseNumber (token : Text) (bound : Bound) (field : Text) : Except ParseError Int :=
  let digits := Text.trim field
  if digits ≠ [] ∧ digits.all Char.isDigit then
    if digits.length ≤ Text.digitLimit then .ok (Text.natOfDigits digits) else .error (.tooManyDigits digits.length)
  else .error (.malformed token (.badNumber bound field))

def parsePattern (token ref wanted : Text) : Except ParseError Citation :=
  if Text.trim ref = [] then .error (.malformed token .noReference)
  else if wanted = [] then .error (.malformed token .emptyPattern)
  else if ']' ∈ wanted then .error (.malformed token .bracketInPattern)
  else .ok ⟨Text.trim ref, .pattern wanted⟩

/-- Reads the fields between colons: a reference and up to two line numbers. -/
def parseFields (token ref : Text) (numbers : List Text) : Except ParseError Citation :=
  if 2 < numbers.length then .error (.malformed token .tooManyFields)
  else if Text.trim ref = [] then .error (.malformed token .noReference)
  else match numbers with
    | [] => .ok ⟨Text.trim ref, .whole⟩
    | [start] => (parseNumber token .start start).map fun number => ⟨Text.trim ref, .line number⟩
    | start :: last :: _ =>
      if Text.allBlank start then .error (.malformed token .endWithoutStart)
      else do
        let first ← parseNumber token .start start
        let last ← parseNumber token .last last
        return ⟨Text.trim ref, .range first last⟩

def parse (token : Text) : Except ParseError Citation :=
  match Text.cut '%' token with
  | some (ref, wanted) => parsePattern token ref wanted
  | none =>
    let fields := Text.splitOn ':' token
    parseFields token (fields.headD []) fields.tail

/-- Reads a token that may be missing altogether. -/
def parseGiven : Option Text → Except ParseError Citation
  | some token => parse token
  | none => .error (.malformed [] .empty)

def isEnclosed (t : Text) : Bool := 2 ≤ t.length && t.head? = some '[' && t.getLast? = some ']'

/-- Reads a marker with its brackets, and blanks around them. -/
def parseMarker (marker : Text) : Except ParseError Citation :=
  let trimmed := Text.trim marker
  if isEnclosed trimmed then parse (trimmed.drop 1).dropLast else .error (.malformed trimmed .notEnclosed)

/-- The reference of a token, even of a malformed one. -/
def refOf (token : Text) : Text := Text.trim (Text.before ':' (Text.before '%' token))

end Quotation.Citation
