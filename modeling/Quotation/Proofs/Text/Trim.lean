import Mathlib.Data.List.DropRight
import Quotation.Text.Blank

/-!
# Trimmed texts

Trimming takes characters away at the ends until none of them is blank there, and then has nothing left to do (`trim_trim`).
-/

namespace Quotation.Text

theorem trimLeft_eq_nil_iff (t : Text) : trimLeft t = [] ↔ allBlank t = true := by
  rw [trimLeft, allBlank, List.dropWhile_eq_nil_iff, List.all_eq_true]

theorem trimRight_eq_rdropWhile (t : Text) : trimRight t = t.rdropWhile isBlank := rfl

theorem trimRight_isPrefix (t : Text) : trimRight t <+: t := List.rdropWhile_prefix isBlank t

theorem length_trim_le (t : Text) : (trim t).length ≤ t.length :=
  (trimRight_isPrefix (trimLeft t)).length_le.trans (List.dropWhile_sublist isBlank).length_le

theorem mem_of_mem_trim {t : Text} {c : Char} (h : c ∈ trim t) : c ∈ t :=
  (List.dropWhile_sublist isBlank).subset ((trimRight_isPrefix (trimLeft t)).subset h)

theorem isBlank_or_mem_trim {t : Text} {c : Char} (h : c ∈ t) : isBlank c = true ∨ c ∈ trim t := by
  rw [← List.takeWhile_append_dropWhile (p := isBlank) (l := t)] at h
  obtain hfront | hrest := List.mem_append.1 h
  · exact Or.inl (List.mem_takeWhile_imp hfront)
  · change c ∈ trimLeft t at hrest
    rw [← List.rdropWhile_append_rtakeWhile (p := isBlank) (l := trimLeft t)] at hrest
    obtain hmiddle | hback := List.mem_append.1 hrest
    · exact Or.inr hmiddle
    · exact Or.inl (List.mem_rtakeWhile_imp hback)

theorem trim_eq_nil_iff (t : Text) : trim t = [] ↔ allBlank t = true := by
  rw [allBlank, List.all_eq_true]
  constructor
  · intro h c hc
    exact (isBlank_or_mem_trim hc).resolve_right (by simp [h])
  · intro h
    rw [trim, (trimLeft_eq_nil_iff t).2 (List.all_eq_true.2 h)]
    rfl

/-- A text that begins with a trimmed text has no more blanks in front than that. -/
theorem trimLeft_of_isPrefix {s t : Text} (hs : s <+: t) (ht : trimLeft t = t) : trimLeft s = s := by
  rw [trimLeft, List.dropWhile_eq_self_iff] at ht ⊢
  intro hlength
  rw [hs.getElem hlength]
  exact ht _

theorem trim_trim (t : Text) : trim (trim t) = trim t := by
  have hleft : trimLeft (trimLeft t) = trimLeft t := List.dropWhile_idempotent isBlank t
  have hboth : trimLeft (trim t) = trim t := trimLeft_of_isPrefix (trimRight_isPrefix (trimLeft t)) hleft
  calc
    trim (trim t) = trimRight (trim t) := by rw [trim, hboth]
    _ = trim t := List.rdropWhile_idempotent isBlank (trimLeft t)

theorem trim_eq_self {t : Text} (hfirst : ∀ c, t.head? = some c → isBlank c = false)
    (hlast : ∀ c, t.getLast? = some c → isBlank c = false) : trim t = t := by
  have hleft : trimLeft t = t := by
    rw [trimLeft, List.dropWhile_eq_self_iff]
    intro hlength
    simp [hfirst t[0] (by simp [List.head?_eq_getElem?, hlength])]
  rw [trim, hleft, trimRight_eq_rdropWhile, List.rdropWhile_eq_self_iff]
  intro hne
  simp [hlast (t.getLast hne) (List.getLast?_eq_some_getLast hne)]

theorem trim_of_no_blank {t : Text} (h : ∀ c ∈ t, isBlank c = false) : trim t = t :=
  trim_eq_self (fun c hc => h c (List.mem_of_mem_head? hc)) fun c hc => h c (List.mem_of_getLast? hc)

theorem trim_enclosed {a b : Char} (ha : isBlank a = false) (hb : isBlank b = false) (t : Text) :
    trim (a :: t ++ [b]) = a :: t ++ [b] := by
  refine trim_eq_self (fun c hc => ?_) fun c hc => ?_
  · obtain rfl : a = c := by simpa using hc
    exact ha
  · rw [List.getLast?_concat, Option.some.injEq] at hc
    exact hc ▸ hb

end Quotation.Text
