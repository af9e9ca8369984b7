import Mathlib.Logic.Function.Iterate
import Quotation.Text.Xml

/-!
# Escaping again and again

Escaping goes from character to character, so it can be done part by part (`escape_append`). It leaves a text alone exactly if nothing in it is reserved, and makes it longer otherwise (`length_escape_eq_iff`). The entities that it puts in start with a character that is reserved, so a text that was changed once is changed every time after (`iterate_escape_eq_iff`).
-/

namespace Quotation.Text.Xml

def reserved : Text := ['&', '<', '>']

theorem mem_reserved_iff {c : Char} : c ∈ reserved ↔ c = '&' ∨ c = '<' ∨ c = '>' := by simp [reserved]

theorem escape_append (a b : Text) : escape (a ++ b) = escape a ++ escape b := by
  simp only [escape_eq_flatMap, List.flatMap_append]

theorem entity_of_not_mem {c : Char} (h : c ∉ reserved) : entity c = [c] := by
  obtain ⟨ha, hl, hg⟩ : c ≠ '&' ∧ c ≠ '<' ∧ c ≠ '>' := by simpa [reserved] using h
  rw [entity, if_neg ha, if_neg hl, if_neg hg]

theorem one_lt_length_entity {c : Char} (h : c ∈ reserved) : 1 < (entity c).length := by
  obtain rfl | rfl | rfl := mem_reserved_iff.1 h
  all_goals decide

theorem exists_mem_entity {c : Char} (h : c ∈ reserved) : ∃ d ∈ entity c, d ∈ reserved := by
  obtain rfl | rfl | rfl := mem_reserved_iff.1 h
  all_goals exact ⟨'&', by decide, by decide⟩

theorem escape_of_not_mem {t : Text} (h : ∀ c ∈ t, c ∉ reserved) : escape t = t := by
  induction t with
  | nil => rfl
  | cons c cs ih =>
    rw [escape_cons, entity_of_not_mem (h c (by simp)), ih fun d hd => h d (List.mem_cons_of_mem c hd)]
    rfl

theorem length_le_escape (t : Text) : t.length ≤ (escape t).length := by
  induction t with
  | nil => exact Nat.le_refl 0
  | cons c cs ih =>
    have hentity : 1 ≤ (entity c).length := by
      by_cases hc : c ∈ reserved
      · exact Nat.le_of_lt (one_lt_length_entity hc)
      · simp [entity_of_not_mem hc]
    rw [escape_cons, List.length_cons, List.length_append]
    omega

theorem length_escape_eq_iff (t : Text) : (escape t).length = t.length ↔ ∀ c ∈ t, c ∉ reserved := by
  refine ⟨fun h => ?_, fun h => by rw [escape_of_not_mem h]⟩
  induction t with
  | nil => simp
  | cons c cs ih =>
    have hrest := length_le_escape cs
    rw [escape_cons, List.length_append, List.length_cons] at h
    have hc : c ∉ reserved := by
      intro hc
      have hentity := one_lt_length_entity hc
      omega
    rw [entity_of_not_mem hc, List.length_singleton] at h
    intro d hd
    obtain rfl | hd := List.mem_cons.1 hd
    · exact hc
    · exact ih (by omega) d hd

theorem forall_not_mem_escape_iff (t : Text) : (∀ c ∈ escape t, c ∉ reserved) ↔ ∀ c ∈ t, c ∉ reserved := by
  refine ⟨fun h c hc hreserved => ?_, fun h => by rwa [escape_of_not_mem h]⟩
  obtain ⟨d, hd, hdreserved⟩ := exists_mem_entity hreserved
  refine h d ?_ hdreserved
  rw [escape_eq_flatMap]
  exact List.mem_flatMap.2 ⟨c, hc, hd⟩

/-! ### More than once -/

theorem iterate_escape_of_not_mem {t : Text} (h : ∀ c ∈ t, c ∉ reserved) (times : Nat) : escape^[times] t = t :=
  Function.iterate_fixed (escape_of_not_mem h) times

theorem length_le_iterate_escape (times : Nat) (t : Text) : t.length ≤ (escape^[times] t).length := by
  induction times generalizing t with
  | zero => exact Nat.le_refl _
  | succ times ih => exact Nat.le_trans (length_le_escape t) (ih (escape t))

/-- Text that has been escaped is changed by escaping it further, unless it has nothing that is reserved. -/
theorem iterate_escape_eq_iff (more : Nat) (t : Text) :
    escape^[more + 1] t = escape t ↔ (1 ≤ more → ∀ c ∈ t, c ∉ reserved) := by
  cases more with
  | zero => simp
  | succ more =>
    refine ⟨fun h _ => ?_, fun h => ?_⟩
    · have htwice := length_le_escape (escape t)
      have hmore := length_le_iterate_escape more (escape (escape t))
      have hlength := congrArg List.length h
      rw [Function.iterate_succ_apply, Function.iterate_succ_apply] at hlength
      have hsame : (escape (escape t)).length = (escape t).length := by omega
      exact (forall_not_mem_escape_iff t).1 ((length_escape_eq_iff (escape t)).1 hsame)
    · have hclean := h (Nat.le_add_left 1 more)
      rw [iterate_escape_of_not_mem hclean, escape_of_not_mem hclean]

end Quotation.Text.Xml
