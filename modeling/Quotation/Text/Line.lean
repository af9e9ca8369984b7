import Quotation.Text.Basic

/-!
# Lines

Where a text breaks into lines. Files may end a line with a line feed, a carriage return or both; reading turns all three into a line feed (`unifyBreaks`). A text is then cut at every character that starts a new line, which besides the line feed are the other vertical controls, the record separators and the separators of Unicode (`lines`).
-/

namespace Quotation.Text

def isBreak (c : Char) : Bool :=
  c = '\n' || c = '\x0b' || c = '\x0c' || c = '\r' || c = '\x1c' || c = '\x1d' || c = '\x1e' || c = '\u0085' ||
    c = '\u2028' || c = '\u2029'

/-- Each carriage return, with the line feed after it if there is one, becomes a single line feed. -/
def unifyBreaks : Text → Text
  | [] => []
  | '\r' :: '\n' :: cs => '\n' :: unifyBreaks cs
  | c :: cs => (if c = '\r' then '\n' else c) :: unifyBreaks cs

/-- The lines of a text without their ends; a break at the very end opens no further line. -/
def lines : Text → List Text
  | [] => []
  | '\r' :: '\n' :: cs => [] :: lines cs
  | c :: cs =>
    if isBreak c then [] :: lines cs
    else match lines cs with
      | [] => [[c]]
      | line :: rest => (c :: line) :: rest

theorem not_isBreak_of_mem_lines (t : Text) : ∀ line ∈ lines t, ∀ c ∈ line, isBreak c = false := by
  fun_induction lines t with
  | case1 => simp
  | case2 cs ih => simpa using ih
  | case3 c cs _ hc ih => simpa using ih
  | case4 c cs _ hc _ ih => simpa using hc
  | case5 c cs _ hc line rest h ih =>
    rw [h] at ih
    intro l hl x hx
    rcases List.mem_cons.1 hl with rfl | hl
    · rcases List.mem_cons.1 hx with rfl | hx
      · simpa using hc
      · exact ih line (by simp) x hx
    · exact ih l (by simp [hl]) x hx

end Quotation.Text
