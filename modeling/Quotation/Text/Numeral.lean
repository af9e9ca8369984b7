import Quotation.Text.Blank
import Quotation.Text.Digit

/-!
# Numerals

Reads a whole number as a person may type it: blanks around it, a sign, decimal digits of any script and single underscores between digits. A text of ASCII characters may have only ASCII spaces around the number; in any other text the further blanks of Unicode count as spaces too. Numbers with too many digits are refused.
-/

namespace Quotation.Text

def isAsciiSpace (c : Char) : Bool := c = ' ' || ('\t' ≤ c && c ≤ '\x0d')

/-- Stands for a character of a numeral: an ASCII digit for a digit of any script, a space for a blank, or itself. -/
def plainChar (c : Char) : Char :=
  if c.toNat < 0x80 then c
  else if isBlank c then ' '
  else match decimalValue? c with
    | some value => Char.ofNat ('0'.toNat + value)
    | none => c

/-- The digits of a numeral without the underscores between them; `wanted` says that a digit has to come next. -/
def plainDigits? (wanted : Bool) : Text → Option Text
  | [] => if wanted then none else some []
  | c :: cs =>
    if c.isDigit then (plainDigits? false cs).map (c :: ·)
    else if c = '_' ∧ wanted = false then plainDigits? true cs
    else none

def parseNat? (t : Text) : Option Nat :=
  (plainDigits? true t).bind fun digits => if digits.length ≤ digitLimit then some (natOfDigits digits) else none

def parseInt? (t : Text) : Option Int :=
  let trimmed := ((t.map plainChar).dropWhile isAsciiSpace).reverse.dropWhile isAsciiSpace |>.reverse
  match trimmed with
  | '-' :: digits => (parseNat? digits).map fun n => -(n : Int)
  | '+' :: digits => (parseNat? digits).map fun n => (n : Int)
  | digits => (parseNat? digits).map fun n => (n : Int)

end Quotation.Text
