import Quotation.Proofs.Text.Pieces
import Quotation.Text.Line

/-!
# Lines of a file

Lines that hold no character ending lines are found again in a file that ends each of them with a line feed (`lines_join`). Reading finds no characters that the file does not have, other than line feeds (`mem_of_mem_unifyBreaks`). In a text without other breaks, the lines are the pieces between line feeds, except for an empty one at the end (`splitOn_eq_lines_or`). Which of the breaks ends a line makes no difference to the lines (`lines_lineFeeds`).
-/

namespace Quotation.Text

theorem unifyBreaks_cons {c : Char} {cs : Text} (hc : c ≠ '\r') : unifyBreaks (c :: cs) = c :: unifyBreaks cs := by
  have hpair : ∀ rest, c = '\r' → cs = '\n' :: rest → False := fun _ h _ => hc h
  rw [unifyBreaks, if_neg hc]
  exact hpair

theorem unifyBreaks_of_not_mem {t : Text} (h : '\r' ∉ t) : unifyBreaks t = t := by
  induction t with
  | nil => rfl
  | cons c cs ih =>
    obtain ⟨hc, hcs⟩ : '\r' ≠ c ∧ '\r' ∉ cs := by simpa using h
    rw [unifyBreaks_cons (Ne.symm hc), ih hcs]

theorem mem_of_mem_unifyBreaks {t : Text} {c : Char} (h : c ∈ unifyBreaks t) : c = '\n' ∨ c ∈ t := by
  fun_induction unifyBreaks t with
  | case1 => simp at h
  | case2 cs ih =>
    rcases List.mem_cons.1 h with rfl | h
    · exact Or.inl rfl
    · exact (ih h).imp_right fun hc => by simp [hc]
  | case3 d cs _ ih =>
    rcases List.mem_cons.1 h with rfl | h
    · split
      · exact Or.inl rfl
      · exact Or.inr (by simp)
    · exact (ih h).imp_right fun hc => by simp [hc]

theorem lines_cons_of_isBreak {c : Char} {cs : Text} (hc : c ≠ '\r') (hbreak : isBreak c = true) :
    lines (c :: cs) = [] :: lines cs := by
  have hpair : ∀ rest, c = '\r' → cs = '\n' :: rest → False := fun _ h _ => hc h
  rw [lines, if_pos hbreak]
  exact hpair

theorem lines_cons_of_not_isBreak {c : Char} {cs line : Text} {rest : List Text} (hbreak : isBreak c = false)
    (h : lines cs = line :: rest) : lines (c :: cs) = (c :: line) :: rest := by
  have hpair : ∀ others, c = '\r' → cs = '\n' :: others → False := by
    rintro others rfl -
    exact absurd hbreak (by decide)
  rw [lines, if_neg (by simp [hbreak]), h]
  exact hpair

theorem lines_singleton {c : Char} (hbreak : isBreak c = false) : lines [c] = [[c]] := by
  rw [lines, if_neg (by simp [hbreak])]
  · rfl
  · exact fun _ _ h => by cases h

theorem lines_append_cons {line : Text} (h : ∀ c ∈ line, isBreak c = false) (rest : Text) :
    lines (line ++ '\n' :: rest) = line :: lines rest := by
  induction line with
  | nil => exact lines_cons_of_isBreak (by decide) (by decide)
  | cons c cs ih =>
    have hrest := ih fun d hd => h d (List.mem_cons_of_mem _ hd)
    exact lines_cons_of_not_isBreak (h c (by simp)) hrest

theorem lines_join {pieces : List Text} (hpieces : pieces ≠ []) (h : ∀ piece ∈ pieces, ∀ c ∈ piece, isBreak c = false) :
    lines (join '\n' pieces ++ ['\n']) = pieces := by
  fun_induction join '\n' pieces with
  | case1 => exact absurd rfl hpieces
  | case2 piece =>
    rw [lines_append_cons (h piece (by simp))]
    rfl
  | case3 piece next rest ih =>
    have hrest := ih (by simp) fun p hp => h p (List.mem_cons_of_mem _ hp)
    rw [List.append_assoc, List.cons_append, lines_append_cons (h piece (by simp)), hrest]

theorem mem_of_mem_lines {t line : Text} {c : Char} (h : line ∈ lines t) (hc : c ∈ line) : c ∈ t := by
  fun_induction lines t generalizing line with
  | case1 => simp at h
  | case2 cs ih =>
    rcases List.mem_cons.1 h with rfl | h
    · simp at hc
    · exact List.mem_cons_of_mem _ (List.mem_cons_of_mem _ (ih h hc))
  | case3 d cs _ _ ih =>
    rcases List.mem_cons.1 h with rfl | h
    · simp at hc
    · exact List.mem_cons_of_mem _ (ih h hc)
  | case4 d cs _ _ _ ih =>
    obtain rfl := List.mem_singleton.1 h
    exact List.mem_cons.2 (Or.inl (List.mem_singleton.1 hc))
  | case5 d cs _ _ first rest hlines ih =>
    rw [hlines] at ih
    rcases List.mem_cons.1 h with rfl | h
    · rcases List.mem_cons.1 hc with rfl | hc
      · simp
      · exact List.mem_cons_of_mem _ (ih (by simp) hc)
    · exact List.mem_cons_of_mem _ (ih (List.mem_cons_of_mem _ h) hc)

theorem splitOn_eq_lines_or {t : Text} (h : ∀ c ∈ t, isBreak c = true → c = '\n') :
    splitOn '\n' t = lines t ∨ splitOn '\n' t = lines t ++ [[]] := by
  induction t with
  | nil => exact Or.inr rfl
  | cons c cs ih =>
    have hrest := ih fun d hd => h d (List.mem_cons_of_mem c hd)
    rw [splitOn]
    split
    · next hc =>
      rw [hc, lines_cons_of_isBreak (by decide) (by decide)]
      exact hrest.imp (congrArg ([] :: ·)) (congrArg ([] :: ·))
    · next hc =>
      have hbreak : isBreak c = false := Bool.eq_false_iff.2 fun hbreak => hc (h c (by simp) hbreak)
      cases hlines : lines cs with
      | nil =>
        rw [hlines] at hrest
        have hpiece : splitOn '\n' cs = [[]] := hrest.resolve_left (splitOn_ne_nil '\n' cs)
        obtain rfl : [] = cs := by simpa [hpiece, join] using join_splitOn '\n' cs
        exact Or.inl (lines_singleton hbreak).symm
      | cons line rest =>
        rw [lines_cons_of_not_isBreak hbreak hlines]
        rw [hlines] at hrest
        obtain hrest | hrest := hrest
        · exact Or.inl (by rw [hrest]; rfl)
        · exact Or.inr (by rw [hrest]; rfl)

/-- The text with a line feed for every character that ends a line. -/
def lineFeeds (t : Text) : Text := t.map fun c => if isBreak c then '\n' else c

theorem lines_cons_congr {c : Char} {first second : Text} (hc : c ≠ '\r') (h : lines first = lines second) :
    lines (c :: first) = lines (c :: second) := by
  have hpair : ∀ t rest : Text, c = '\r' → t = '\n' :: rest → False := fun _ _ hreturn _ => hc hreturn
  rw [lines.eq_3 c first (hpair first), lines.eq_3 c second (hpair second), h]

theorem lines_lineFeeds {t : Text} (h : '\r' ∉ t) : lines (lineFeeds t) = lines t := by
  induction t with
  | nil => rfl
  | cons c cs ih =>
    obtain ⟨hc, hcs⟩ : '\r' ≠ c ∧ '\r' ∉ cs := by simpa using h
    rw [lineFeeds, List.map_cons]
    cases hbreak : isBreak c with
    | true => rw [if_pos rfl, lines_cons_of_isBreak (by decide) (by decide), lines_cons_of_isBreak (Ne.symm hc) hbreak, ← ih hcs, lineFeeds]
    | false => exact lines_cons_congr (Ne.symm hc) (ih hcs)

theorem isBreak_of_mem_lineFeeds {t : Text} {c : Char} (h : c ∈ lineFeeds t) (hbreak : isBreak c = true) : c = '\n' := by
  obtain ⟨d, -, rfl⟩ := List.mem_map.1 h
  cases hd : isBreak d with
  | true => simp
  | false => simp [hd] at hbreak

theorem lineFeeds_eq_self {t : Text} (h : ∀ c ∈ t, isBreak c = true → c = '\n') : lineFeeds t = t := by
  refine (List.map_congr_left fun c hc => ?_).trans (List.map_id t)
  split
  · next hbreak => exact (h c hc hbreak).symm
  · rfl

end Quotation.Text
