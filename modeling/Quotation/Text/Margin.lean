import Quotation.Text.Blank

/-!
# Margins

The margin of a text is the longest run of spaces and tabs that all its lines begin with, lines of nothing else aside. `outdent` takes the margin off and empties the lines that hold spaces and tabs only; `indent` puts a margin of spaces before every line that is not blank.
-/

namespace Quotation.Text

def isPadding (c : Char) : Bool := c = ' ' || c = '\t'

def onlyPadding (line : Text) : Bool := line.all isPadding

/-- The longest text both texts begin with. -/
def commonStart : Text → Text → Text
  | a :: as, b :: bs => if a = b then a :: commonStart as bs else []
  | _, _ => []

/-- The longest padding that all the lines begin with which hold anything else. -/
def margin (lines : List Text) : Text :=
  match (lines.filter fun line => !onlyPadding line).map (·.takeWhile isPadding) with
  | [] => []
  | first :: rest => rest.foldl commonStart first

def outdent (t : Text) : Text :=
  let lines := splitOn '\n' t
  let width := (margin lines).length
  join '\n' (lines.map fun line => if onlyPadding line then [] else line.drop width)

/-- The widest margin that can be counted. -/
def countableMargin : Nat := 0x7FFFFFFFFFFFFFFF

/-- The widest margin that there is room for: the bound stands for the memory of the machine. -/
def storableMargin : Nat := 0x1000000000

/-- The text with `width` spaces before every line that is not blank. -/
def indent (width : Nat) (t : Text) : Text :=
  join '\n' ((splitOn '\n' t).map fun line => if allBlank line then line else List.replicate width ' ' ++ line)

end Quotation.Text
