import Quotation.Citation.Parser
import Quotation.Proofs.Text.Pieces
import Quotation.Proofs.Text.Trim

/-!
# How reading a citation fails

A token that is no citation fails to be read with one of the library's own reasons, or with a number of too many digits. `NumberFieldsFit` is what a text has to keep to for the second never to happen.
-/

namespace Quotation.Citation

/-- Whether every field behind a colon that is a run of digits has few enough of them; behind a percent sign there are no fields. -/
def NumberFieldsFit (token : Text) : Prop :=
  '%' ∉ token → ∀ field ∈ (Text.splitOn ':' token).tail, (∀ c ∈ Text.trim field, c.isDigit = true) →
    (Text.trim field).length ≤ Text.digitLimit

theorem numberFieldsFit_of_length_le {token : Text} (h : token.length ≤ Text.digitLimit) : NumberFieldsFit token := by
  intro _ field hfield _
  calc
    (Text.trim field).length ≤ field.length := Text.length_trim_le field
    _ ≤ token.length := Text.length_le_of_mem_splitOn (List.mem_of_mem_tail hfield)
    _ ≤ Text.digitLimit := h

/-- Whether an error is a reason that the library gives itself. -/
def ParseError.IsOwnReason : ParseError → Prop
  | .malformed _ (.stated _) => False
  | .malformed _ _ => True
  | .tooManyDigits _ => False

theorem isOwnReason_of_parseNumber {token field : Text} {bound : Bound} {e : ParseError}
    (hfit : (∀ c ∈ Text.trim field, c.isDigit = true) → (Text.trim field).length ≤ Text.digitLimit)
    (h : parseNumber token bound field = .error e) : e.IsOwnReason := by
  simp only [parseNumber] at h
  split at h
  · next hdigits =>
    rw [if_pos (hfit (by simpa using hdigits.2))] at h
    cases h
  · obtain rfl := Except.error.inj h
    trivial

theorem isOwnReason_of_parsePattern {token ref wanted : Text} {e : ParseError}
    (h : parsePattern token ref wanted = .error e) : e.IsOwnReason := by
  rw [parsePattern] at h
  split at h
  · exact Except.error.inj h ▸ trivial
  · split at h
    · exact Except.error.inj h ▸ trivial
    · split at h
      · exact Except.error.inj h ▸ trivial
      · cases h

theorem isOwnReason_of_parseFields {token ref : Text} {numbers : List Text} {e : ParseError}
    (hfit : ∀ field ∈ numbers, (∀ c ∈ Text.trim field, c.isDigit = true) → (Text.trim field).length ≤ Text.digitLimit)
    (h : parseFields token ref numbers = .error e) : e.IsOwnReason := by
  rw [parseFields.eq_def] at h
  split at h
  · exact Except.error.inj h ▸ trivial
  · split at h
    · exact Except.error.inj h ▸ trivial
    · rcases numbers with _ | ⟨start, _ | ⟨last, rest⟩⟩
      · cases h
      · dsimp only at h
        cases hstart : parseNumber token .start start with
        | ok number => simp [hstart, Except.map] at h
        | error failure =>
          rw [hstart] at h
          exact Except.error.inj h ▸ isOwnReason_of_parseNumber (hfit start (by simp)) hstart
      · dsimp only at h
        split at h
        · exact Except.error.inj h ▸ trivial
        · cases hstart : parseNumber token .start start with
          | error failure =>
            rw [hstart] at h
            exact Except.error.inj h ▸ isOwnReason_of_parseNumber (hfit start (by simp)) hstart
          | ok first =>
            cases hlast : parseNumber token .last last with
            | error failure =>
              rw [hstart, hlast] at h
              exact Except.error.inj h ▸ isOwnReason_of_parseNumber (hfit last (by simp)) hlast
            | ok final =>
              rw [hstart, hlast] at h
              cases h

theorem isOwnReason_of_parse {token : Text} {e : ParseError} (hfit : NumberFieldsFit token)
    (h : parse token = .error e) : e.IsOwnReason := by
  rw [parse] at h
  split at h
  · exact isOwnReason_of_parsePattern h
  · next hcut => exact isOwnReason_of_parseFields (hfit (Text.cut_eq_none_iff.1 hcut)) h

end Quotation.Citation
