import Mathlib.Data.List.Forall2
import Mathlib.Data.List.TakeWhile
import Quotation.Config
import Quotation.Proofs.Text.Pieces

/-!
# The margin of a quote

The margin is found by folding over the lines, and any padding that starts all lines with text starts the margin (`isPrefix_margin_iff`). So it is the longest such padding (`isMargin_margin`). What is left of the lines when it has been taken off has no margin, since any would have made the first one longer; taking it off again changes nothing (`outdent_outdent`). A quote that is given a new margin keeps its lines, each of them changed by itself (`layOut_realigns`).
-/

namespace Quotation

namespace Text

variable {lines : List Text} {w line : Text} {width : Nat}

/-- The longest padding that all the lines begin with which hold anything else. Without such a line there is no longest one. -/
structure IsMargin (lines : List Text) (w : Text) : Prop where
  padding : onlyPadding w = true
  common : ∀ line ∈ lines, onlyPadding line = false → w <+: line
  longest : (∃ line ∈ lines, onlyPadding line = false) →
    ∀ v, onlyPadding v = true → (∀ line ∈ lines, onlyPadding line = false → v <+: line) → v <+: w

/-- How a line comes out when the margin `w` gives way to `width` spaces. -/
inductive Realigned (w : Text) (width : Nat) : Text → Text → Prop where
  | padding {line : Text} (h : onlyPadding line = true) : Realigned w width line []
  | blank {rest : Text} (h : onlyPadding (w ++ rest) = false) (hblank : allBlank rest = true) :
      Realigned w width (w ++ rest) rest
  | shown {rest : Text} (h : onlyPadding (w ++ rest) = false) (hblank : allBlank rest = false) :
      Realigned w width (w ++ rest) (List.replicate width ' ' ++ rest)

/-! ### The longest common padding -/

theorem isPrefix_commonStart_iff {a b : Text} : w <+: commonStart a b ↔ w <+: a ∧ w <+: b := by
  induction a generalizing b w with
  | nil => simpa [commonStart, List.prefix_nil] using fun h : w = [] => h ▸ List.nil_prefix
  | cons c cs ih =>
    cases b with
    | nil => simpa [commonStart, List.prefix_nil] using fun h : w = [] => h ▸ List.nil_prefix
    | cons d ds =>
      cases w with
      | nil => simp
      | cons e es =>
        rw [commonStart]
        split
        · next hsame => rw [hsame, List.cons_prefix_cons, List.cons_prefix_cons, List.cons_prefix_cons, ih, and_and_left]
        · next hdiffer =>
          refine ⟨fun h => by simp [List.prefix_nil] at h, fun ⟨ha, hb⟩ => absurd ?_ hdiffer⟩
          exact (List.cons_prefix_cons.1 ha).1.symm.trans (List.cons_prefix_cons.1 hb).1

theorem isPrefix_foldl_commonStart_iff {first : Text} {rest : List Text} :
    w <+: rest.foldl commonStart first ↔ w <+: first ∧ ∀ t ∈ rest, w <+: t := by
  induction rest generalizing first with
  | nil => simp
  | cons t rest ih => rw [List.foldl_cons, ih, isPrefix_commonStart_iff, List.forall_mem_cons, and_assoc]

theorem isPrefix_takeWhile_isPadding_iff : w <+: line.takeWhile isPadding ↔ onlyPadding w = true ∧ w <+: line := by
  constructor
  · intro h
    exact ⟨List.all_eq_true.2 fun c hc => List.mem_takeWhile_imp (h.subset hc), h.trans (List.takeWhile_prefix isPadding)⟩
  · rintro ⟨hpadding, rest, rfl⟩
    rw [List.takeWhile_append_of_pos (List.all_eq_true.1 hpadding)]
    exact List.prefix_append w _

theorem isPrefix_margin_iff (hsome : ∃ line ∈ lines, onlyPadding line = false) :
    w <+: margin lines ↔ onlyPadding w = true ∧ ∀ line ∈ lines, onlyPadding line = false → w <+: line := by
  obtain ⟨line, hline, hshown⟩ := hsome
  have hmem : line.takeWhile isPadding ∈ (lines.filter fun line => !onlyPadding line).map (·.takeWhile isPadding) :=
    List.mem_map_of_mem (List.mem_filter.2 ⟨hline, by simp [hshown]⟩)
  obtain ⟨first, rest, hstarts⟩ := List.exists_cons_of_ne_nil (List.ne_nil_of_mem hmem)
  have hfold : w <+: margin lines ↔
      ∀ start ∈ (lines.filter fun line => !onlyPadding line).map (·.takeWhile isPadding), w <+: start := by
    rw [margin, hstarts, isPrefix_foldl_commonStart_iff, List.forall_mem_cons]
  simp only [hfold, List.forall_mem_map, List.mem_filter, Bool.not_eq_true', and_imp, isPrefix_takeWhile_isPadding_iff]
  exact ⟨fun h => ⟨(h line hline hshown).1, fun other hother hother' => (h other hother hother').2⟩,
    fun h other hother hother' => ⟨h.1, h.2 other hother hother'⟩⟩

theorem margin_of_onlyPadding (h : ∀ line ∈ lines, onlyPadding line = true) : margin lines = [] := by
  have hnone : (lines.filter fun line => !onlyPadding line) = [] := by simpa [List.filter_eq_nil_iff] using h
  rw [margin, hnone]
  rfl

/-- What is taken off is the longest padding that the lines have in common. -/
theorem isMargin_margin (lines : List Text) : IsMargin lines (margin lines) := by
  by_cases hsome : ∃ line ∈ lines, onlyPadding line = false
  · obtain ⟨hpadding, hcommon⟩ := (isPrefix_margin_iff hsome).1 List.prefix_rfl
    exact ⟨hpadding, hcommon, fun _ v hv hall => (isPrefix_margin_iff hsome).2 ⟨hv, hall⟩⟩
  · have hnone : ∀ line ∈ lines, onlyPadding line = true := by simpa using hsome
    rw [margin_of_onlyPadding hnone]
    exact ⟨rfl, fun _ _ _ => List.nil_prefix, fun h => absurd h hsome⟩

/-! ### Taking it off -/

/-- A line without its first `count` characters, or nothing if it is a line of padding. -/
def outdented (count : Nat) (line : Text) : Text := if onlyPadding line then [] else line.drop count

/-- A line behind a new margin, unless it is blank. -/
def indented (width : Nat) (line : Text) : Text := if allBlank line then line else List.replicate width ' ' ++ line

theorem outdented_of_onlyPadding {count : Nat} (h : onlyPadding line = true) : outdented count line = [] := if_pos h

theorem outdent_eq (t : Text) :
    outdent t = join '\n' ((splitOn '\n' t).map (outdented (margin (splitOn '\n' t)).length)) := rfl

theorem indent_eq (width : Nat) (t : Text) : indent width t = join '\n' ((splitOn '\n' t).map (indented width)) := rfl

theorem splitOn_outdent (t : Text) :
    splitOn '\n' (outdent t) = (splitOn '\n' t).map (outdented (margin (splitOn '\n' t)).length) := by
  rw [outdent_eq]
  refine splitOn_join_map (fun line hline hmem => ?_) t
  rw [outdented] at hmem
  split at hmem
  · simp at hmem
  · exact hline (List.mem_of_mem_drop hmem)

theorem splitOn_indent (width : Nat) (t : Text) : splitOn '\n' (indent width t) = (splitOn '\n' t).map (indented width) := by
  rw [indent_eq]
  refine splitOn_join_map (fun line hline hmem => ?_) t
  rw [indented] at hmem
  split at hmem
  · exact hline hmem
  · simp [hline] at hmem

theorem onlyPadding_append (w rest : Text) : onlyPadding (w ++ rest) = (onlyPadding w && onlyPadding rest) := List.all_append

theorem IsMargin.exists_rest (h : IsMargin lines w) (hline : line ∈ lines) (hshown : onlyPadding line = false) :
    ∃ rest, line = w ++ rest ∧ onlyPadding rest = false ∧ outdented w.length line = rest := by
  obtain ⟨rest, rfl⟩ := h.common line hline hshown
  refine ⟨rest, rfl, ?_, ?_⟩
  · rwa [onlyPadding_append, h.padding, Bool.true_and] at hshown
  · rw [outdented, hshown, if_neg (by simp), List.drop_left]

theorem IsMargin.eq_nil_of_outdented {v : Text} (h : IsMargin lines w)
    (hv : IsMargin (lines.map (outdented w.length)) v) (hsome : ∃ line ∈ lines, onlyPadding line = false) : v = [] := by
  -- With `v` behind it the margin would still be common to all lines.
  have hlonger : w ++ v <+: w := by
    refine h.longest hsome _ (by rw [onlyPadding_append, h.padding, hv.padding]; rfl) fun line hline hshown => ?_
    obtain ⟨rest, rfl, hrest, houtdented⟩ := h.exists_rest hline hshown
    have hprefix : v <+: rest := hv.common rest (List.mem_map.2 ⟨_, hline, houtdented⟩) hrest
    exact (List.prefix_append_right_inj w).2 hprefix
  have hlength := hlonger.length_le
  rw [List.length_append] at hlength
  exact List.eq_nil_of_length_eq_zero (by omega)

theorem outdent_outdent (t : Text) : outdent (outdent t) = outdent t := by
  have hmargin := isMargin_margin (splitOn '\n' t)
  have hagain := isMargin_margin ((splitOn '\n' t).map (outdented (margin (splitOn '\n' t)).length))
  refine (join_splitOn '\n' _).symm.trans ((congrArg (join '\n') ?_).trans (join_splitOn '\n' _))
  rw [splitOn_outdent, splitOn_outdent]
  generalize splitOn '\n' t = lines at hmargin hagain ⊢
  generalize margin lines = w at hmargin hagain ⊢
  generalize margin (lines.map (outdented w.length)) = v at hagain ⊢
  rw [List.map_map]
  refine List.map_congr_left fun line hline => ?_
  rw [Function.comp_apply]
  cases hshown : onlyPadding line with
  | true =>
    rw [outdented_of_onlyPadding hshown]
    rfl
  | false =>
    obtain ⟨rest, -, hrest, houtdented⟩ := hmargin.exists_rest hline hshown
    rw [houtdented, hmargin.eq_nil_of_outdented hagain ⟨line, hline, hshown⟩, outdented, hrest]
    rfl

/-! ### Putting a new one on -/

theorem realigned_indented (h : IsMargin lines w) (hline : line ∈ lines) :
    Realigned w width line (indented width (outdented w.length line)) := by
  cases hshown : onlyPadding line with
  | true =>
    rw [outdented_of_onlyPadding hshown]
    exact .padding hshown
  | false =>
    obtain ⟨rest, rfl, -, houtdented⟩ := h.exists_rest hline hshown
    rw [houtdented, indented]
    split
    · next hblank => exact .blank hshown hblank
    · next hblank => exact .shown hshown (by simpa using hblank)

theorem indent_zero (t : Text) : indent 0 t = t := by
  have hsame : (splitOn '\n' t).map (indented 0) = splitOn '\n' t :=
    (List.map_congr_left fun line _ => ite_self line).trans (List.map_id _)
  rw [← join_splitOn '\n' (indent 0 t), splitOn_indent, hsame, join_splitOn]

end Text

/-! ### Quotes -/

open Text

theorem laidOut_realigning (config : Config) (width : Nat) (quote : Text) :
    Config.laidOut { config with outdent := true, indent := width, escapeXml := false } quote = indent width (outdent quote) := by
  rw [Config.laidOut]
  cases width with
  | zero => exact (indent_zero (outdent quote)).symm
  | succ width =>
    have hpos : (0 : Int) < (width + 1 : Nat) := Int.natCast_pos.2 (Nat.succ_pos width)
    simp only [Bool.false_eq_true, if_false, if_true, if_pos hpos, Int.toNat_natCast]

/-- A quote that is outdented and given a margin of `width` spaces keeps its lines: those of padding become empty, and the others have their longest common padding replaced by the new margin, or taken off where nothing but blanks is left. Taking margins off twice is the same as once. A margin that there is no room for is a fault, whatever the quote. -/
theorem layOut_realigns (config : Config) (width : Nat) (quote : Text) :
    let realigning : Config := { config with outdent := true, indent := width, escapeXml := false }
    let outdenting : Config := { config with outdent := true, indent := 0, escapeXml := false }
    (width ≤ storableMargin → ∃ text w, realigning.layOut quote = .ok text ∧
      (splitOn '\n' text).length = (splitOn '\n' quote).length ∧ IsMargin (splitOn '\n' quote) w ∧
      List.Forall₂ (Realigned w width) (splitOn '\n' quote) (splitOn '\n' text)) ∧
    (storableMargin < width →
      realigning.layOut quote = .error (if countableMargin < width then .marginUncountable else .marginTooWide)) ∧
    ∃ text, outdenting.layOut quote = .ok text ∧ outdenting.layOut text = .ok text := by
  intro realigning outdenting
  refine ⟨fun hroom => ?_, fun hwide => ?_, outdent quote, ?_, ?_⟩
  · have hmargin := isMargin_margin (splitOn '\n' quote)
    have hlines : splitOn '\n' (indent width (outdent quote)) =
        (splitOn '\n' quote).map (indented width ∘ outdented (margin (splitOn '\n' quote)).length) := by
      rw [splitOn_indent, splitOn_outdent, List.map_map]
    refine ⟨indent width (outdent quote), _, ?_, by rw [hlines, List.length_map], hmargin, ?_⟩
    · rw [Config.layOut_of_le (Int.ofNat_le.2 hroom), laidOut_realigning]
    · rw [hlines, List.forall₂_map_right_iff, List.forall₂_same]
      exact fun line hline => realigned_indented hmargin hline
  · have htooWide : (storableMargin : Int) < realigning.indent := Int.ofNat_lt.2 hwide
    rw [Config.layOut, Config.checkMargin, if_pos htooWide]
    simp only [realigning, Int.ofNat_lt]
    split <;> rfl
  · exact Config.layOut_of_le (Int.natCast_nonneg _) quote
  · exact (Config.layOut_of_le (Int.natCast_nonneg _) (outdent quote)).trans (congrArg Except.ok (outdent_outdent quote))

example : Config.layOut { outdent := true, indent := 2 } "\t a\n\t  \n\tb\n\t\x0c".toList = .ok "   a\n\n  b\n\x0c".toList := by decide

/-- The margin is made before any line is looked at, so one that no line would get can be too wide. -/
theorem exists_margin_without_room :
    ∃ (quote : Text) (width : Nat), IsMargin (splitOn '\n' quote) [] ∧
      List.Forall₂ (Realigned [] width) (splitOn '\n' quote) (splitOn '\n' quote) ∧
      ∀ text, Config.layOut { outdent := true, indent := width } quote ≠ .ok text := by
  refine ⟨[], 99999999999999999999, isMargin_margin [[]], .cons (.padding rfl) .nil, fun text => ?_⟩
  have hwide : Config.layOut { outdent := true, indent := (99999999999999999999 : Nat) } [] = .error .marginUncountable := by decide
  rw [hwide]
  exact nofun

end Quotation
