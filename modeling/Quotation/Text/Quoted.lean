import Quotation.Text.Hex
import Quotation.Text.Printable

/-!
# Quoted text

A text as messages show it: between quotation marks, on one line, with every character visible. Single marks are used unless the text holds single marks and no double ones. The mark and the backslash are written with a backslash before them; line feed, carriage return and tab have escapes of their own; other unprintable characters are written by code point.
-/

namespace Quotation.Text

/-- The escape of a character by its code point: two, four or eight hexadecimal digits. -/
def codePoint (c : Char) : Text :=
  if c.toNat < 0x100 then '\\' :: 'x' :: hex 2 c.toNat
  else if c.toNat < 0x10000 then '\\' :: 'u' :: hex 4 c.toNat
  else '\\' :: 'U' :: hex 8 c.toNat

/-- How a character is written between marks of the given kind. -/
def quotedChar (mark c : Char) : Text :=
  if c = mark ∨ c = '\\' then ['\\', c]
  else if c = '\n' then ['\\', 'n']
  else if c = '\r' then ['\\', 'r']
  else if c = '\t' then ['\\', 't']
  else if isPrintable c then [c]
  else codePoint c

/-- The mark that needs fewer escapes, a single one when in doubt. -/
def quotedMark (t : Text) : Char := if '\'' ∈ t ∧ '"' ∉ t then '"' else '\''

def quoted (t : Text) : Text :=
  let mark := quotedMark t
  mark :: t.flatMap (quotedChar mark) ++ [mark]

@[simp] theorem quoted_nil : quoted [] = ['\'', '\''] := rfl

end Quotation.Text
