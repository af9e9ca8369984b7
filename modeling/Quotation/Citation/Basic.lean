import Quotation.Text.Blank
import Quotation.Text.Quoted

/-!
# Citations

A citation names a file and the passage of it that is quoted: all of it, one line, a range of lines, or what a pattern leads to. It is written between brackets, as the reference followed by a colon before each line number or by a percent sign before the pattern.
-/

namespace Quotation

/-- The part of a file that a citation quotes. Line numbers count from one and ranges include both ends. -/
inductive Passage where
  | whole
  | line (number : Int)
  | range (first last : Int)
  | pattern (wanted : Text)
  deriving DecidableEq, Repr

structure Citation where
  /-- The cited file as written. -/
  ref : Text
  passage : Passage
  deriving DecidableEq, Repr

/-- The end of a range of lines that a number stands for. -/
inductive Bound where
  | start
  | last
  deriving DecidableEq, Repr

def Bound.name : Bound → String
  | .start => "start"
  | .last => "end"

inductive Malformed where
  | empty
  | noReference
  | emptyPattern
  | bracketInPattern
  | tooManyFields
  | endWithoutStart
  | badNumber (bound : Bound) (written : Text)
  | notEnclosed
  | rangeAndPattern
  /-- A reason in words of the caller's own. -/
  | stated (words : Text)
  deriving DecidableEq, Repr

def Malformed.message : Malformed → String
  | .empty => "empty citation"
  | .noReference => "missing file reference"
  | .emptyPattern => "empty pattern"
  | .bracketInPattern => "pattern may not contain ']'"
  | .tooManyFields => "too many ':' separated fields"
  | .endWithoutStart => "end line without start line"
  | .badNumber bound written =>
    s!"{bound.name} line must be a non-negative integer, got {String.ofList (Text.quoted written)}"
  | .notEnclosed => "marker must be enclosed in '[' and ']'"
  | .rangeAndPattern => "line range and pattern are mutually exclusive"
  | .stated words => String.ofList words

namespace Citation

/-- The passage that separately given fields describe; a range needs its start, and a pattern excludes line numbers. -/
def passageOf? (start last : Option Int) (pattern : Option Text) : Except Malformed Passage :=
  match start, last, pattern with
  | none, some _, _ => .error .endWithoutStart
  | some _, _, some _ => .error .rangeAndPattern
  | none, none, some wanted => .ok (.pattern wanted)
  | some first, some last, none => .ok (.range first last)
  | some number, none, none => .ok (.line number)
  | none, none, none => .ok .whole

/-- The citation without its brackets. -/
def token (c : Citation) : Text :=
  match c.passage with
  | .whole => c.ref
  | .line number => c.ref ++ ':' :: Text.ofInt number
  | .range first last => c.ref ++ ':' :: Text.ofInt first ++ ':' :: Text.ofInt last
  | .pattern wanted => c.ref ++ '%' :: wanted

def marker (c : Citation) : Text := '[' :: c.token ++ [']']

def start? (c : Citation) : Option Int :=
  match c.passage with
  | .line number => some number
  | .range first _ => some first
  | _ => none

def last? (c : Citation) : Option Int :=
  match c.passage with
  | .range _ last => some last
  | _ => none

def pattern? (c : Citation) : Option Text :=
  match c.passage with
  | .pattern wanted => some wanted
  | _ => none

/-- The passages that can be written down and read again. -/
def Passage.WellFormed : Passage → Prop
  | .whole => True
  | .line number => 0 ≤ number
  | .range first last => 0 ≤ first ∧ 0 ≤ last
  | .pattern wanted => wanted ≠ [] ∧ ']' ∉ wanted

/-- The citations whose token reads as the citation itself. -/
def WellFormed (c : Citation) : Prop :=
  c.ref ≠ [] ∧ Text.trim c.ref = c.ref ∧ '%' ∉ c.ref ∧ (c.pattern? = none → ':' ∉ c.ref) ∧ Passage.WellFormed c.passage

/-- Fields and passages tell the same. -/
theorem passageOf?_fields (c : Citation) : passageOf? c.start? c.last? c.pattern? = .ok c.passage := by
  obtain ⟨ref, passage⟩ := c
  cases passage <;> rfl

end Citation

end Quotation
