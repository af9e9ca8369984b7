import Quotation.Excerpt
import Quotation.Proofs.Text.Pieces

/-!
# Ranges of lines

Lines are counted from one, and a range includes both its ends. A range that runs backwards is refused whatever the lines are, and one that leaves them is refused for the first of its ends that does so. Any other range is the lines between its ends and nothing else (`ofRange_of_inside`), so that ranges next to each other make up one (`between_append`). Since both ends are looked at before lines are taken, numbers below one never count from the end of the file.
-/

namespace Quotation.Excerpt

def between (lines : List Text) (first last : Int) : List Text := (lines.take last.toNat).drop (first.toNat - 1)

structure Inside (lines : List Text) (first last : Int) : Prop where
  start : 1 ≤ first
  ordered : first ≤ last
  stop : last ≤ lines.length

variable {target : Text} {lines : List Text} {number first middle last : Int}

/-! ### Single lines -/

theorem lineAt_of_inside (target : Text) (hlow : 1 ≤ number) (hhigh : number ≤ lines.length) :
    ∃ line, lines[number.toNat - 1]? = some line ∧ lineAt target lines number = .ok line := by
  have hindex : number.toNat - 1 < lines.length := by omega
  refine ⟨lines[number.toNat - 1], List.getElem?_eq_getElem hindex, ?_⟩
  rw [lineAt, if_neg (Int.not_lt.2 hlow), List.getElem?_eq_getElem hindex]

theorem lineAt_of_outside (h : number < 1 ∨ lines.length < number) :
    lineAt target lines number = .error (.lineOutOfRange target number lines.length) := by
  rw [lineAt]
  split
  · rfl
  · next hlow =>
    have hindex : lines.length ≤ number.toNat - 1 := by omega
    rw [List.getElem?_eq_none hindex]

theorem exists_lineAt_iff : (∃ line, lineAt target lines number = .ok line) ↔ 1 ≤ number ∧ number ≤ lines.length := by
  constructor
  · rintro ⟨line, hline⟩
    by_cases hinside : 1 ≤ number ∧ number ≤ lines.length
    · exact hinside
    · rw [lineAt_of_outside (by omega)] at hline
      cases hline
  · rintro ⟨hlow, hhigh⟩
    obtain ⟨line, -, hline⟩ := lineAt_of_inside target hlow hhigh
    exact ⟨line, hline⟩

/-! ### The lines between two ends -/

theorem length_between (h : Inside lines first last) : ((between lines first last).length : Int) = last - first + 1 := by
  obtain ⟨hstart, hordered, hstop⟩ := h
  rw [between, List.length_drop, List.length_take]
  omega

theorem between_ne_nil (h : Inside lines first last) : between lines first last ≠ [] := by
  intro hnil
  have hlength := length_between h
  have hordered := h.ordered
  rw [hnil, List.length_nil] at hlength
  omega

theorem exists_eq_append_between (h : Inside lines first last) :
    ∃ above below, lines = above ++ between lines first last ++ below ∧ (above.length : Int) = first - 1 := by
  obtain ⟨hstart, hordered, hstop⟩ := h
  refine ⟨(lines.take last.toNat).take (first.toNat - 1), lines.drop last.toNat, ?_, ?_⟩
  · rw [between, List.take_append_drop, List.take_append_drop]
  · rw [List.length_take, List.length_take]
    omega

theorem between_self (hlow : 1 ≤ number) {line : Text} (hline : lines[number.toNat - 1]? = some line) :
    between lines number number = [line] := by
  obtain ⟨index, hnumber⟩ : ∃ index, number.toNat = index + 1 := ⟨number.toNat - 1, by omega⟩
  rw [hnumber, Nat.add_sub_cancel] at hline
  obtain ⟨hindex, rfl⟩ := List.getElem?_eq_some_iff.1 hline
  rw [between, hnumber, Nat.add_sub_cancel, List.drop_take, Nat.add_sub_cancel_left, List.drop_eq_getElem_cons hindex]
  rfl

theorem between_whole : between lines 1 lines.length = lines := by
  rw [between, Int.toNat_natCast, List.take_length]
  rfl

theorem between_append (h : Inside lines first middle) (h' : Inside lines (middle + 1) last) :
    between lines first middle ++ between lines (middle + 1) last = between lines first last := by
  obtain ⟨hstart, hordered, -⟩ := h
  obtain ⟨-, hlater, hstop⟩ := h'
  have hnext : (middle + 1).toNat - 1 = middle.toNat := by omega
  have hmiddle : middle.toNat ≤ last.toNat := by omega
  have hwithin : first.toNat - 1 ≤ (lines.take middle.toNat).length := by rw [List.length_take]; omega
  have hcut : lines.take last.toNat = lines.take middle.toNat ++ (lines.take last.toNat).drop middle.toNat := by
    rw [← List.take_append_drop middle.toNat (lines.take last.toNat), List.take_take, Nat.min_eq_left hmiddle,
      List.drop_left' (by rw [List.length_take]; omega)]
  rw [between, between, between, hnext, hcut, List.drop_append_of_le_length hwithin, ← hcut]

/-! ### Ranges -/

inductive Verdict (target : Text) (lines : List Text) (first last : Int) : Except CitationError Text → Prop
  | backwards (h : last < first) : Verdict target lines first last (.error (.invalidRange target first last))
  /-- A range that does not run backwards is refused for its start before its end. -/
  | outside (ordered : first ≤ last) (leaves : first < 1 ∨ lines.length < last) : Verdict target lines first last
      (.error (.lineOutOfRange target (if 1 ≤ first ∧ first ≤ lines.length then last else first) lines.length))
  | inside (h : Inside lines first last) : Verdict target lines first last (.ok (Text.join '\n' (between lines first last)))

theorem ofRange_of_lt (h : last < first) : ofRange target lines first last = .error (.invalidRange target first last) := by
  rw [ofRange, if_pos h]
  rfl

theorem ofRange_of_outside (hordered : first ≤ last) (hleaves : first < 1 ∨ lines.length < last) :
    ofRange target lines first last =
      .error (.lineOutOfRange target (if 1 ≤ first ∧ first ≤ lines.length then last else first) lines.length) := by
  rw [ofRange, if_neg (Int.not_lt.2 hordered)]
  by_cases hfirst : 1 ≤ first ∧ first ≤ lines.length
  · obtain ⟨line, -, hline⟩ := lineAt_of_inside target hfirst.1 hfirst.2
    have hlast : last < 1 ∨ (lines.length : Int) < last := by omega
    rw [if_pos hfirst, hline, lineAt_of_outside hlast]
    rfl
  · have hout : first < 1 ∨ (lines.length : Int) < first := by omega
    rw [if_neg hfirst, lineAt_of_outside hout]
    rfl

theorem ofRange_of_inside (h : Inside lines first last) :
    ofRange target lines first last = .ok (Text.join '\n' (between lines first last)) := by
  obtain ⟨hstart, hordered, hstop⟩ := h
  obtain ⟨start, -, hfirst⟩ := lineAt_of_inside target hstart (Int.le_trans hordered hstop)
  obtain ⟨stop, -, hlast⟩ := lineAt_of_inside target (Int.le_trans hstart hordered) hstop
  rw [ofRange, if_neg (Int.not_lt.2 hordered), hfirst, hlast]
  rfl

theorem verdict_ofRange (target : Text) (lines : List Text) (first last : Int) :
    Verdict target lines first last (ofRange target lines first last) := by
  by_cases hlt : last < first
  · exact ofRange_of_lt hlt ▸ .backwards hlt
  · have hordered : first ≤ last := Int.not_lt.1 hlt
    by_cases hleaves : first < 1 ∨ lines.length < last
    · exact ofRange_of_outside hordered hleaves ▸ .outside hordered hleaves
    · have hinside : Inside lines first last := ⟨by omega, hordered, by omega⟩
      exact ofRange_of_inside hinside ▸ .inside hinside

/-- A range is quoted as its upper part and its lower part are. -/
theorem ofRange_append (hupper : Inside lines first middle) (hlower : Inside lines (middle + 1) last) :
    ∃ upper lower, ofRange target lines first middle = .ok upper ∧ ofRange target lines (middle + 1) last = .ok lower ∧
      ofRange target lines first last = .ok (upper ++ '\n' :: lower) := by
  have hordered : first ≤ last := by
    have hfirst := hupper.ordered
    have hlast := hlower.ordered
    omega
  have hwhole : Inside lines first last := ⟨hupper.start, hordered, hlower.stop⟩
  refine ⟨_, _, ofRange_of_inside hupper, ofRange_of_inside hlower, ?_⟩
  rw [ofRange_of_inside hwhole, ← between_append hupper hlower, Text.join_append (between_ne_nil hupper) (between_ne_nil hlower)]

/-! ### Quoting by number -/

theorem extract_range (ref : Text) (lines : List Text) (first last : Int) :
    extract lines ⟨ref, .range first last⟩ = ofRange ref lines first last := rfl

/-- What quoting a single line or a range of lines comes to, for all numbers. -/
structure QuotesByNumber (ref : Text) (lines : List Text) : Prop where
  backwards : ∀ first last : Int, extract lines ⟨ref, .range first last⟩ = .error (.invalidRange ref first last) ↔ last < first
  /-- The error names the start unless that is there, and else the end. -/
  outside : ∀ first last line count : Int, extract lines ⟨ref, .range first last⟩ = .error (.lineOutOfRange ref line count) ↔
    first ≤ last ∧ (first < 1 ∨ lines.length < last) ∧
      line = (if 1 ≤ first ∧ first ≤ lines.length then last else first) ∧ count = lines.length
  /-- The quote is made of the lines that are left without those before the start and those behind the end. -/
  inside : ∀ first last : Int, Inside lines first last → ∃ above quoted below, lines = above ++ quoted ++ below ∧
    (above.length : Int) = first - 1 ∧ (quoted.length : Int) = last - first + 1 ∧
    extract lines ⟨ref, .range first last⟩ = .ok (Text.join '\n' quoted)
  single : ∀ number : Int, (∃ quote, extract lines ⟨ref, .line number⟩ = .ok quote) ↔ 1 ≤ number ∧ number ≤ lines.length
  single_eq_range : ∀ (number : Int) (quote : Text), extract lines ⟨ref, .line number⟩ = .ok quote →
    extract lines ⟨ref, .range number number⟩ = .ok quote
  compose : ∀ first middle last : Int, 1 ≤ first → first ≤ middle → middle < last → last ≤ lines.length →
    ∃ upper lower, extract lines ⟨ref, .range first middle⟩ = .ok upper ∧
      extract lines ⟨ref, .range (middle + 1) last⟩ = .ok lower ∧
      extract lines ⟨ref, .range first last⟩ = .ok (upper ++ '\n' :: lower)
  whole : 1 ≤ lines.length → extract lines ⟨ref, .range 1 lines.length⟩ = extract lines ⟨ref, .whole⟩

theorem quotesByNumber (ref : Text) (lines : List Text) : QuotesByNumber ref lines where
  backwards first last := by
    rw [extract_range]
    refine ⟨fun h => ?_, ofRange_of_lt⟩
    have hverdict := verdict_ofRange ref lines first last
    rw [h] at hverdict
    cases hverdict with
    | backwards hlt => exact hlt
  outside first last line count := by
    rw [extract_range]
    constructor
    · intro h
      have hverdict := verdict_ofRange ref lines first last
      rw [h] at hverdict
      cases hverdict with
      | outside hordered hleaves => exact ⟨hordered, hleaves, rfl, rfl⟩
    · rintro ⟨hordered, hleaves, rfl, rfl⟩
      exact ofRange_of_outside hordered hleaves
  inside first last h := by
    obtain ⟨above, below, hlines, habove⟩ := exists_eq_append_between h
    exact ⟨above, between lines first last, below, hlines, habove, length_between h, ofRange_of_inside h⟩
  single number := exists_lineAt_iff
  single_eq_range number quote h := by
    obtain ⟨hlow, hhigh⟩ := exists_lineAt_iff.1 ⟨quote, h⟩
    obtain ⟨line, hline, hquote⟩ := lineAt_of_inside ref hlow hhigh
    obtain rfl := Except.ok.inj (hquote.symm.trans h)
    rw [extract_range, ofRange_of_inside ⟨hlow, Int.le_refl _, hhigh⟩, between_self hlow hline]
    rfl
  compose first middle last hstart hupper hlower hstop := by
    have hinside : Inside lines first middle := ⟨hstart, hupper, Int.le_trans (Int.le_of_lt hlower) hstop⟩
    exact ofRange_append hinside ⟨by omega, hlower, hstop⟩
  whole h := by
    rw [extract_range, ofRange_of_inside ⟨Int.le_refl 1, by omega, Int.le_refl _⟩, between_whole]
    rfl

theorem quotesByNumber_of_three :
    let lines := ["a".toList, "b".toList, "c".toList]
    extract lines ⟨"f".toList, .range 1 3⟩ = .ok "a\nb\nc".toList ∧
      extract lines ⟨"f".toList, .range 0 9⟩ = .error (.lineOutOfRange "f".toList 0 3) ∧
      extract lines ⟨"f".toList, .range 3 9⟩ = .error (.lineOutOfRange "f".toList 9 3) ∧
      extract lines ⟨"f".toList, .range 9 (-9)⟩ = .error (.invalidRange "f".toList 9 (-9)) := by
  intro lines
  have h := quotesByNumber "f".toList lines
  refine ⟨?_, (h.outside 0 9 0 3).2 (by decide), (h.outside 3 9 9 3).2 (by decide), (h.backwards 9 (-9)).2 (by decide)⟩
  obtain ⟨upper, lower, hupper, hlower, hwhole⟩ := h.compose 1 2 3 (by decide) (by decide) (by decide) (by decide)
  have hab : extract lines ⟨"f".toList, .range 1 2⟩ = .ok "a\nb".toList := rfl
  have hc : extract lines ⟨"f".toList, .range 3 3⟩ = .ok "c".toList := rfl
  obtain rfl := Except.ok.inj (hupper.symm.trans hab)
  obtain rfl := Except.ok.inj (hlower.symm.trans hc)
  exact hwhole

end Quotation.Excerpt
