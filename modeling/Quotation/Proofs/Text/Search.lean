import Quotation.Text.Basic

/-!
# Looking for a pattern

A pattern is found in a text where it occurs first, and what counts is what follows it there (`after?_eq_some_iff`). Whether it is found at all depends on whether it is a part of the text (`contains_iff`).
-/

namespace Quotation.Text

/-- The pattern stands between `before` and `after`, and nowhere earlier in the text. -/
structure OccursFirst (pattern t before after : Text) : Prop where
  split : t = before ++ pattern ++ after
  first : ∀ other rest, t = other ++ pattern ++ rest → before.length ≤ other.length

variable {pattern t before after : Text}

theorem OccursFirst.isInfix (h : OccursFirst pattern t before after) : pattern <:+: t := ⟨before, after, h.split.symm⟩

theorem OccursFirst.unique {before' after' : Text} (h : OccursFirst pattern t before after) (h' : OccursFirst pattern t before' after') :
    before = before' ∧ after = after' := by
  have hlength : before.length = before'.length := Nat.le_antisymm (h.first _ _ h'.split) (h'.first _ _ h.split)
  have hsplit : before ++ (pattern ++ after) = before' ++ (pattern ++ after') := by
    rw [← List.append_assoc, ← List.append_assoc, ← h.split, ← h'.split]
  obtain ⟨hbefore, hrest⟩ := List.append_inj hsplit hlength
  exact ⟨hbefore, List.append_cancel_left hrest⟩

theorem after?_eq_none_iff : after? pattern t = none ↔ ¬ pattern <:+: t := by
  induction t with
  | nil => simp [after?]
  | cons c cs ih =>
    rw [after?, List.infix_cons_iff, ← List.isPrefixOf_iff_prefix]
    split
    · next hstarts => simp [hstarts]
    · next hstarts => rw [ih, or_iff_right hstarts]

theorem contains_iff : contains pattern t = true ↔ pattern <:+: t := by
  rw [contains, Option.isSome_iff_ne_none, Ne, after?_eq_none_iff, Decidable.not_not]

theorem exists_occursFirst_of_after? (h : after? pattern t = some after) : ∃ before, OccursFirst pattern t before after := by
  induction t with
  | nil =>
    rw [after?] at h
    split at h
    · next hempty =>
      obtain rfl := Option.some.inj h
      obtain rfl := List.isEmpty_iff.1 hempty
      exact ⟨[], rfl, fun other rest _ => Nat.zero_le _⟩
    · cases h
  | cons c cs ih =>
    rw [after?] at h
    split at h
    · next hstarts =>
      obtain ⟨rest, hrest⟩ := List.isPrefixOf_iff_prefix.1 hstarts
      obtain rfl := Option.some.inj h
      refine ⟨[], ?_, fun other rest _ => Nat.zero_le _⟩
      rw [← hrest, List.drop_left, List.nil_append]
    · next hstarts =>
      obtain ⟨before, hsplit, hfirst⟩ := ih h
      refine ⟨c :: before, by rw [hsplit]; rfl, fun other rest hother => ?_⟩
      cases other with
      | nil => exact absurd (List.isPrefixOf_iff_prefix.2 ⟨rest, hother.symm⟩) hstarts
      | cons d ds =>
        obtain ⟨-, hcs⟩ := List.cons.inj hother
        exact Nat.succ_le_succ (hfirst ds rest hcs)

theorem after?_eq_some_iff : after? pattern t = some after ↔ ∃ before, OccursFirst pattern t before after := by
  refine ⟨exists_occursFirst_of_after?, fun ⟨before, h⟩ => ?_⟩
  cases hafter : after? pattern t with
  | none => exact absurd h.isInfix (after?_eq_none_iff.1 hafter)
  | some found =>
    obtain ⟨before', h'⟩ := exists_occursFirst_of_after? hafter
    rw [(h.unique h').2]

end Quotation.Text
