import Quotation.Text.CharSet
import Quotation.Text.Basic

/-!
# Blank characters

Which characters count as white space, and what is left of a text without the ones at its ends. Blank are the ASCII spaces, the separators of Unicode and four control characters that mark off records.
-/

namespace Quotation.Text

/-- The white space of Unicode together with the four information separators. -/
def blanks : CharSet :=
  [(0x9, 0xD), (0x1C, 0x20), (0x85, 0x85), (0xA0, 0xA0), (0x1680, 0x1680), (0x2000, 0x200A), (0x2028, 0x2029),
    (0x202F, 0x202F), (0x205F, 0x205F), (0x3000, 0x3000)]

def isBlank (c : Char) : Bool := blanks.has c

def allBlank (t : Text) : Bool := t.all isBlank

def trimLeft (t : Text) : Text := t.dropWhile isBlank

def trimRight (t : Text) : Text := (t.reverse.dropWhile isBlank).reverse

/-- The text without the blanks at both ends. -/
def trim (t : Text) : Text := trimRight (trimLeft t)

@[simp] theorem trim_nil : trim [] = [] := rfl

end Quotation.Text
