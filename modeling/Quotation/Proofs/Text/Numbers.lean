import Mathlib.Algebra.Group.Nat.Defs
import Quotation.Text.Blank
import Quotation.Text.Digit

/-!
# Written numbers

The decimal digits of a number read as the number again (`natOfDigits_toDigits`), and a run of digits stands for a number that has no more of them.
-/

namespace Quotation.Text

theorem natOfDigits_eq_ofDigitChars (digits : Text) : natOfDigits digits = Nat.ofDigitChars 10 digits 0 :=
  Nat.ofDigitChars_eq_foldl.symm

theorem natOfDigits_toDigits (n : Nat) : natOfDigits (Nat.toDigits 10 n) = n := by
  rw [natOfDigits_eq_ofDigitChars, Nat.ofDigitChars_ten_toDigits]

theorem ofInt_natCast (n : Nat) : ofInt n = Nat.toDigits 10 n := Nat.toList_repr

theorem isDigit_of_mem_toDigits {n : Nat} {c : Char} (h : c ∈ Nat.toDigits 10 n) : c.isDigit = true :=
  Nat.isDigit_of_mem_toDigits (by decide) (by decide) h

theorem eq_minus_or_isDigit_of_mem_ofInt {n : Int} {c : Char} (h : c ∈ ofInt n) : c = '-' ∨ c.isDigit = true := by
  cases n with
  | ofNat m =>
    rw [Int.ofNat_eq_natCast, ofInt_natCast] at h
    exact .inr (isDigit_of_mem_toDigits h)
  | negSucc m =>
    have hnegative : ofInt (Int.negSucc m) = '-' :: Nat.toDigits 10 (m + 1) := by simp [ofInt, toString, Int.repr]
    rw [hnegative, List.mem_cons] at h
    exact h.imp_right isDigit_of_mem_toDigits

theorem not_isBlank_of_isDigit {c : Char} (h : c.isDigit = true) : isBlank c = false := by
  have hbounds : 48 ≤ c.toNat ∧ c.toNat ≤ 57 := by simpa [Char.isDigit, UInt32.le_iff_toNat_le] using h
  simp only [isBlank, blanks, CharSet.has_cons, CharSet.has_nil, Bool.or_false, Bool.or_eq_false_iff,
    Bool.and_eq_false_iff, decide_eq_false_iff_not]
  omega

theorem ofDigitChars_lt {digits : Text} (h : ∀ c ∈ digits, c.isDigit = true) (start : Nat) :
    Nat.ofDigitChars 10 digits start < (start + 1) * 10 ^ digits.length := by
  induction digits generalizing start with
  | nil => simp
  | cons c cs ih =>
    have hbounds : 48 ≤ c.toNat ∧ c.toNat ≤ 57 := by simpa [Char.isDigit, UInt32.le_iff_toNat_le] using h c (by simp)
    rw [Nat.ofDigitChars_cons, List.length_cons, Nat.pow_succ]
    calc
      Nat.ofDigitChars 10 cs (10 * start + (c.toNat - '0'.toNat))
        < (10 * start + (c.toNat - '0'.toNat) + 1) * 10 ^ cs.length := ih (fun d hd => h d (by simp [hd])) _
      _ ≤ (start + 1) * 10 * 10 ^ cs.length := by
        apply Nat.mul_le_mul_right
        simp only [show '0'.toNat = 48 from rfl]
        omega
      _ = (start + 1) * (10 ^ cs.length * 10) := by rw [Nat.mul_assoc, Nat.mul_comm 10]

theorem natOfDigits_lt {digits : Text} (h : ∀ c ∈ digits, c.isDigit = true) : natOfDigits digits < 10 ^ digits.length := by
  simpa [natOfDigits_eq_ofDigitChars] using ofDigitChars_lt h 0

/-- A number has no more digits than the run of digits that it is read from. -/
theorem length_toDigits_natOfDigits_le {digits : Text} (hne : digits ≠ []) (h : ∀ c ∈ digits, c.isDigit = true) :
    (Nat.toDigits 10 (natOfDigits digits)).length ≤ digits.length :=
  (Nat.length_toDigits_le_iff (by decide) (List.length_pos_iff.2 hne)).2 (natOfDigits_lt h)

end Quotation.Text
