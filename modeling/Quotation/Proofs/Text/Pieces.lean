import Quotation.Text.Basic

/-!
# Cutting and joining

The pieces that a separator cuts a text into hold no separator, and pieces that hold none are found again after they have been joined (`splitOn_join`). Joining goes from left to right (`join_append`). Cutting once is cutting at the first separator.
-/

namespace Quotation.Text

variable {sep : Char}

theorem splitOn_of_not_mem {t : Text} (h : sep ∉ t) : splitOn sep t = [t] := by
  induction t with
  | nil => rfl
  | cons c cs ih =>
    obtain ⟨hc, hcs⟩ : sep ≠ c ∧ sep ∉ cs := by simpa using h
    rw [splitOn, if_neg (Ne.symm hc), ih hcs]
    rfl

theorem splitOn_append_cons {first : Text} (h : sep ∉ first) (rest : Text) :
    splitOn sep (first ++ sep :: rest) = first :: splitOn sep rest := by
  induction first with
  | nil => simp [splitOn]
  | cons c cs ih =>
    obtain ⟨hc, hcs⟩ : sep ≠ c ∧ sep ∉ cs := by simpa using h
    rw [List.cons_append, splitOn, if_neg (Ne.symm hc), ih hcs]
    rfl

theorem not_mem_of_mem_splitOn {t piece : Text} (h : piece ∈ splitOn sep t) : sep ∉ piece := by
  induction t generalizing piece with
  | nil => simp_all [splitOn]
  | cons c cs ih =>
    rw [splitOn] at h
    split at h
    · rcases List.mem_cons.1 h with rfl | h
      · simp
      · exact ih h
    · next hc =>
      cases hsplit : splitOn sep cs with
      | nil => exact absurd hsplit (splitOn_ne_nil sep cs)
      | cons first rest =>
        rw [hsplit] at h ih
        rcases List.mem_cons.1 h with rfl | h
        · simpa [Ne.symm hc] using ih (by simp)
        · exact ih (List.mem_cons_of_mem _ h)

theorem mem_join_of_mem {pieces : List Text} {piece : Text} {c : Char} (hpiece : piece ∈ pieces) (hc : c ∈ piece) :
    c ∈ join sep pieces := by
  fun_induction join sep pieces with
  | case1 => simp at hpiece
  | case2 only => simpa [List.mem_singleton.1 hpiece] using hc
  | case3 first next rest ih =>
    rcases List.mem_cons.1 hpiece with rfl | hrest
    · exact List.mem_append_left _ hc
    · exact List.mem_append_right _ (List.mem_cons_of_mem _ (ih hrest))

theorem mem_of_mem_join {pieces : List Text} {c : Char} (h : c ∈ join sep pieces) :
    c = sep ∨ ∃ piece ∈ pieces, c ∈ piece := by
  fun_induction join sep pieces with
  | case1 => simp at h
  | case2 piece => exact Or.inr ⟨piece, by simp, h⟩
  | case3 piece next rest ih =>
    rcases List.mem_append.1 h with hpiece | h
    · exact Or.inr ⟨piece, by simp, hpiece⟩
    · rcases List.mem_cons.1 h with rfl | h
      · exact Or.inl rfl
      · rcases ih h with hc | ⟨p, hp, hc⟩
        · exact Or.inl hc
        · exact Or.inr ⟨p, List.mem_cons_of_mem _ hp, hc⟩

theorem forall_mem_join {P : Char → Prop} {pieces : List Text} (hsep : P sep) (h : ∀ piece ∈ pieces, ∀ c ∈ piece, P c) :
    ∀ c ∈ join sep pieces, P c := by
  intro c hc
  obtain rfl | ⟨piece, hpiece, hc⟩ := mem_of_mem_join hc
  · exact hsep
  · exact h piece hpiece c hc

theorem mem_of_mem_splitOn {t piece : Text} {c : Char} (h : piece ∈ splitOn sep t) (hc : c ∈ piece) : c ∈ t := by
  rw [← join_splitOn sep t]
  exact mem_join_of_mem h hc

theorem length_le_of_mem_splitOn {t piece : Text} (h : piece ∈ splitOn sep t) : piece.length ≤ t.length := by
  induction t generalizing piece with
  | nil => simp_all [splitOn]
  | cons c cs ih =>
    rw [splitOn] at h
    split at h
    · rcases List.mem_cons.1 h with rfl | h
      · simp
      · exact Nat.le_succ_of_le (ih h)
    · cases hsplit : splitOn sep cs with
      | nil => exact absurd hsplit (splitOn_ne_nil sep cs)
      | cons first rest =>
        rw [hsplit] at h ih
        rcases List.mem_cons.1 h with rfl | h
        · exact Nat.succ_le_succ (ih (by simp))
        · exact Nat.le_succ_of_le (ih (List.mem_cons_of_mem _ h))

theorem splitOn_join {pieces : List Text} (hpieces : pieces ≠ []) (h : ∀ piece ∈ pieces, sep ∉ piece) :
    splitOn sep (join sep pieces) = pieces := by
  fun_induction join sep pieces with
  | case1 => exact absurd rfl hpieces
  | case2 piece => exact splitOn_of_not_mem (h piece (by simp))
  | case3 piece next rest ih =>
    rw [splitOn_append_cons (h piece (by simp)), ih (by simp) fun p hp => h p (List.mem_cons_of_mem _ hp)]

/-- Pieces that are changed without a separator coming in are found again after they have been joined. -/
theorem splitOn_join_map {f : Text → Text} (h : ∀ piece, sep ∉ piece → sep ∉ f piece) (t : Text) :
    splitOn sep (join sep ((splitOn sep t).map f)) = (splitOn sep t).map f := by
  refine splitOn_join (by simpa using splitOn_ne_nil sep t) fun piece hpiece => ?_
  obtain ⟨before, hbefore, rfl⟩ := List.mem_map.1 hpiece
  exact h before (not_mem_of_mem_splitOn hbefore)

theorem flatMap_splitOn_of_not_mem {pieces : List Text} (h : ∀ piece ∈ pieces, sep ∉ piece) : pieces.flatMap (splitOn sep) = pieces := by
  induction pieces with
  | nil => rfl
  | cons piece rest ih =>
    obtain ⟨hpiece, hrest⟩ := List.forall_mem_cons.1 h
    rw [List.flatMap_cons, splitOn_of_not_mem hpiece, ih hrest]
    rfl

theorem join_cons_of_ne_nil (piece : Text) {rest : List Text} (h : rest ≠ []) :
    join sep (piece :: rest) = piece ++ sep :: join sep rest := by
  cases rest with
  | nil => exact absurd rfl h
  | cons next rest => rfl

theorem join_append {first second : List Text} (hfirst : first ≠ []) (hsecond : second ≠ []) :
    join sep (first ++ second) = join sep first ++ sep :: join sep second := by
  induction first with
  | nil => exact absurd rfl hfirst
  | cons piece rest ih =>
    rw [List.cons_append]
    cases rest with
    | nil => exact join_cons_of_ne_nil piece hsecond
    | cons next rest =>
      rw [join_cons_of_ne_nil piece (by simp), ih (by simp), join_cons_of_ne_nil piece (by simp), List.append_assoc, List.cons_append]

theorem exists_join_concat (sep : Char) (pieces : List Text) : ∃ front, ∀ last, join sep (pieces ++ [last]) = front ++ last := by
  cases pieces with
  | nil => exact ⟨[], fun _ => rfl⟩
  | cons piece rest =>
    refine ⟨join sep (piece :: rest) ++ [sep], fun last => ?_⟩
    rw [join_append (by simp) (by simp), List.append_assoc]
    rfl

theorem infix_join_of_mem {pieces : List Text} {piece : Text} (h : piece ∈ pieces) : piece <:+: join sep pieces := by
  induction pieces with
  | nil => cases h
  | cons first rest ih =>
    by_cases hrest : rest = []
    · subst hrest
      obtain rfl := List.mem_singleton.1 h
      exact List.infix_rfl
    · rw [join_cons_of_ne_nil first hrest]
      obtain rfl | h := List.mem_cons.1 h
      · exact (List.prefix_append _ _).isInfix
      · exact ((ih h).trans (List.suffix_cons sep _).isInfix).trans (List.suffix_append first _).isInfix

/-- Cutting pieces further makes no difference to the text that they make up. -/
theorem join_flatMap_splitOn (pieces : List Text) : join sep (pieces.flatMap (splitOn sep)) = join sep pieces := by
  induction pieces with
  | nil => rfl
  | cons piece rest ih =>
    rw [List.flatMap_cons]
    cases rest with
    | nil => simp [join]
    | cons next rest =>
      have hrest : (next :: rest).flatMap (splitOn sep) ≠ [] := by simp [splitOn_ne_nil]
      rw [join_append (splitOn_ne_nil sep piece) hrest, ih, join_splitOn, join_cons_of_ne_nil piece (by simp)]

theorem cut_append_cons {first : Text} (h : sep ∉ first) (rest : Text) :
    cut sep (first ++ sep :: rest) = some (first, rest) := by
  induction first with
  | nil => simp [cut]
  | cons c cs ih =>
    obtain ⟨hc, hcs⟩ : sep ≠ c ∧ sep ∉ cs := by simpa using h
    rw [List.cons_append, cut, if_neg (Ne.symm hc), ih hcs]
    rfl

theorem not_mem_before (sep : Char) (t : Text) : sep ∉ before sep t := by
  intro h
  have hall : (before sep t).all (· ≠ sep) = true := List.all_takeWhile
  simpa using List.all_eq_true.1 hall sep h

theorem before_append_cons {first : Text} (h : sep ∉ first) (rest : Text) : before sep (first ++ sep :: rest) = first := by
  induction first with
  | nil => simp [before]
  | cons c cs ih =>
    obtain ⟨hc, hcs⟩ : sep ≠ c ∧ sep ∉ cs := by simpa using h
    rw [before] at ih
    rw [List.cons_append, before, List.takeWhile_cons_of_pos (by simpa using Ne.symm hc), ih hcs]

theorem before_of_not_mem {t : Text} (h : sep ∉ t) : before sep t = t := by
  induction t with
  | nil => rfl
  | cons c cs ih =>
    obtain ⟨hc, hcs⟩ : sep ≠ c ∧ sep ∉ cs := by simpa using h
    rw [before] at ih
    rw [before, List.takeWhile_cons_of_pos (by simpa using Ne.symm hc), ih hcs]

theorem cut_eq_none_iff {t : Text} : cut sep t = none ↔ sep ∉ t := by
  induction t with
  | nil => simp [cut]
  | cons c cs ih =>
    rw [cut, List.mem_cons]
    split
    · next hc => simp [hc]
    · next hc => simp [ih, Ne.symm hc]

end Quotation.Text
