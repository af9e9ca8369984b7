import Quotation.Text.Basic

/-!
# Hexadecimal numerals

Lower-case hexadecimal digits of a fixed least width, as escapes and byte dumps write them.
-/

namespace Quotation.Text

/-- The hexadecimal digits of `n`, padded with zeros on the left up to `width`. -/
def hex (width n : Nat) : Text :=
  let digits := Nat.toDigits 16 n
  List.replicate (width - digits.length) '0' ++ digits

end Quotation.Text
