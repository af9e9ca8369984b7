import Quotation.Proofs.Citation.Grammar
import Quotation.Proofs.Text.Numbers

/-!
# How citations are spelled

A token spells a citation in one of four shapes (`Spells`): a reference alone, one with a line number or two behind colons, or one with a pattern behind a percent sign. Reading takes exactly these tokens for the citations that they spell, as long as no number has too many digits (`parse_of_numberFieldsFit`).

What becomes of any token at all is told by `verdict_parse`. A number of too many digits ends the reading once it is come to: that is, if there is a reference and the fields before it are numbers that can be read (`Overlong`). Everything else is malformed.
-/

namespace Quotation.Citation

/-- The field is a run of ASCII digits, but for blanks around it. -/
structure IsNumeral (field : Text) : Prop where
  ne_nil : Text.trim field ≠ []
  digits : ∀ c ∈ Text.trim field, c.isDigit = true

def numeralValue (field : Text) : Int := Nat.ofDigitChars 10 (Text.trim field) 0

def IsShort (field : Text) : Prop := (Text.trim field).length ≤ Text.digitLimit

inductive Spells : Text → Citation → Prop where
  | whole {ref : Text} (href : Text.allBlank ref = false) (hpercent : '%' ∉ ref) (hcolon : ':' ∉ ref) :
      Spells ref ⟨Text.trim ref, .whole⟩
  | line {ref start : Text} (href : Text.allBlank ref = false) (hpercent : '%' ∉ ref) (hcolon : ':' ∉ ref)
      (hstart : IsNumeral start) : Spells (ref ++ ':' :: start) ⟨Text.trim ref, .line (numeralValue start)⟩
  | range {ref start last : Text} (href : Text.allBlank ref = false) (hpercent : '%' ∉ ref) (hcolon : ':' ∉ ref)
      (hstart : IsNumeral start) (hlast : IsNumeral last) :
      Spells (ref ++ ':' :: (start ++ ':' :: last)) ⟨Text.trim ref, .range (numeralValue start) (numeralValue last)⟩
  | pattern {ref wanted : Text} (href : Text.allBlank ref = false) (hpercent : '%' ∉ ref) (hwanted : wanted ≠ [])
      (hbracket : ']' ∉ wanted) : Spells (ref ++ '%' :: wanted) ⟨Text.trim ref, .pattern wanted⟩

/-- Reading the token comes to a number of `count` digits, which are too many. -/
structure Overlong (token : Text) (count : Nat) : Prop where
  percent : '%' ∉ token
  number : ∃ ref earlier field later, Text.splitOn ':' token = ref :: (earlier ++ field :: later) ∧
    (earlier ++ field :: later).length ≤ 2 ∧ Text.allBlank ref = false ∧
    (∀ other ∈ earlier, IsNumeral other ∧ IsShort other) ∧ IsNumeral field ∧ ¬ IsShort field ∧
    (Text.trim field).length = count

inductive Verdict (token : Text) : Except ParseError Citation → Prop where
  | read {c : Citation} (hspells : Spells token c) (hfit : NumberFieldsFit token) : Verdict token (.ok c)
  | overlong {count : Nat} (h : Overlong token count) : Verdict token (.error (.tooManyDigits count))
  | malformed (reason : Malformed) : Verdict token (.error (.malformed token reason))

variable {token ref field start last wanted : Text} {bound : Bound} {c : Citation} {count : Nat}

/-! ### Numbers -/

theorem IsNumeral.not_mem (h : IsNumeral field) {d : Char} (hdigit : d.isDigit = false) (hblank : Text.isBlank d = false) :
    d ∉ field := by
  intro hmem
  obtain hd | hd := Text.isBlank_or_mem_trim hmem
  · simp [hd] at hblank
  · simp [h.digits d hd] at hdigit

theorem IsNumeral.not_allBlank (h : IsNumeral field) : ¬ Text.allBlank field = true :=
  fun hblank => h.ne_nil ((Text.trim_eq_nil_iff field).2 hblank)

/-- A field is a numeral exactly if the test that reading makes accepts it. -/
theorem isNumeral_iff : IsNumeral field ↔ Text.trim field ≠ [] ∧ (Text.trim field).all Char.isDigit = true :=
  ⟨fun h => ⟨h.ne_nil, List.all_eq_true.2 h.digits⟩, fun h => ⟨h.1, List.all_eq_true.1 h.2⟩⟩

instance (field : Text) : Decidable (IsNumeral field) := decidable_of_iff _ isNumeral_iff.symm

theorem parseNumber_of_isShort (token : Text) (bound : Bound) (h : IsNumeral field) (hshort : IsShort field) :
    parseNumber token bound field = .ok (numeralValue field) := by
  rw [IsShort] at hshort
  simp only [parseNumber, if_pos (isNumeral_iff.1 h), if_pos hshort, Text.natOfDigits_eq_ofDigitChars, numeralValue]

theorem parseNumber_of_not_isShort (token : Text) (bound : Bound) (h : IsNumeral field) (hlong : ¬ IsShort field) :
    parseNumber token bound field = .error (.tooManyDigits (Text.trim field).length) := by
  rw [IsShort] at hlong
  simp only [parseNumber, if_pos (isNumeral_iff.1 h), if_neg hlong]

theorem parseNumber_of_not_isNumeral (token : Text) (bound : Bound) (h : ¬ IsNumeral field) :
    parseNumber token bound field = .error (.malformed token (.badNumber bound field)) := by
  simp only [parseNumber, if_neg (mt isNumeral_iff.2 h)]

theorem parseNumber_cases (token : Text) (bound : Bound) (field : Text) :
    (IsNumeral field ∧ IsShort field ∧ parseNumber token bound field = .ok (numeralValue field)) ∨
      (IsNumeral field ∧ ¬ IsShort field ∧ parseNumber token bound field = .error (.tooManyDigits (Text.trim field).length)) ∨
      ∃ reason, parseNumber token bound field = .error (.malformed token reason) := by
  by_cases hnumeral : IsNumeral field
  · by_cases hshort : IsShort field
    · exact Or.inl ⟨hnumeral, hshort, parseNumber_of_isShort token bound hnumeral hshort⟩
    · exact Or.inr (Or.inl ⟨hnumeral, hshort, parseNumber_of_not_isShort token bound hnumeral hshort⟩)
  · exact Or.inr (Or.inr ⟨_, parseNumber_of_not_isNumeral token bound hnumeral⟩)

/-! ### What becomes of a token -/

theorem allBlank_of_trim_ne_nil (h : Text.trim ref ≠ []) : Text.allBlank ref = false :=
  Bool.eq_false_iff.2 fun hblank => h ((Text.trim_eq_nil_iff ref).2 hblank)

theorem numberFieldsFit_of_splitOn {numbers : List Text} (hsplit : Text.splitOn ':' token = ref :: numbers)
    (h : ∀ field ∈ numbers, IsShort field) : NumberFieldsFit token := by
  intro _ field hfield _
  rw [hsplit] at hfield
  exact h field hfield

theorem verdict_parsePattern (hpercent : '%' ∉ ref) :
    Verdict (ref ++ '%' :: wanted) (parsePattern (ref ++ '%' :: wanted) ref wanted) := by
  rw [parsePattern]
  split
  · exact .malformed _
  · next href =>
    split
    · exact .malformed _
    · next hwanted =>
      split
      · exact .malformed _
      · next hbracket =>
        exact .read (.pattern (allBlank_of_trim_ne_nil href) hpercent hwanted hbracket) fun hnone => absurd (by simp) hnone

theorem verdict_parseFields {numbers : List Text} (hpercent : '%' ∉ token)
    (hsplit : Text.splitOn ':' token = ref :: numbers) : Verdict token (parseFields token ref numbers) := by
  have htoken : token = Text.join ':' (ref :: numbers) := by rw [← hsplit, Text.join_splitOn]
  have hmem : ref ∈ Text.splitOn ':' token := by simp [hsplit]
  have hcolon : ':' ∉ ref := Text.not_mem_of_mem_splitOn hmem
  have hrefPercent : '%' ∉ ref := fun h => hpercent (Text.mem_of_mem_splitOn hmem h)
  rw [parseFields.eq_def]
  split
  · exact .malformed _
  · next hfew =>
    split
    · exact .malformed _
    · next hne =>
      have href : Text.allBlank ref = false := allBlank_of_trim_ne_nil hne
      rcases numbers with _ | ⟨start, _ | ⟨last, rest⟩⟩
      · exact .read (htoken ▸ .whole href hrefPercent hcolon) (numberFieldsFit_of_splitOn hsplit (by simp))
      · dsimp only
        obtain ⟨hstart, hshort, hread⟩ | ⟨hstart, hlong, hread⟩ | ⟨reason, hread⟩ := parseNumber_cases token .start start
        · rw [hread]
          exact .read (htoken ▸ .line href hrefPercent hcolon hstart) (numberFieldsFit_of_splitOn hsplit (by simpa using hshort))
        · rw [hread]
          exact .overlong ⟨hpercent, ref, [], start, [], hsplit, by simp, href, by simp, hstart, hlong, rfl⟩
        · rw [hread]
          exact .malformed reason
      · obtain rfl : rest = [] := by simpa using hfew
        dsimp only
        split
        · exact .malformed _
        · obtain ⟨hstart, hshort, hread⟩ | ⟨hstart, hlong, hread⟩ | ⟨reason, hread⟩ := parseNumber_cases token .start start
          · rw [hread]
            obtain ⟨hlast, hlastShort, hlastRead⟩ | ⟨hlast, hlong, hlastRead⟩ | ⟨reason, hlastRead⟩ :=
              parseNumber_cases token .last last
            · rw [hlastRead]
              exact .read (htoken ▸ .range href hrefPercent hcolon hstart hlast)
                (numberFieldsFit_of_splitOn hsplit (by simpa using ⟨hshort, hlastShort⟩))
            · rw [hlastRead]
              exact .overlong ⟨hpercent, ref, [start], last, [], hsplit, by simp, href, by simpa using ⟨hstart, hshort⟩, hlast,
                hlong, rfl⟩
            · rw [hlastRead]
              exact .malformed reason
          · rw [hread]
            exact .overlong ⟨hpercent, ref, [], start, [last], hsplit, by simp, href, by simp, hstart, hlong, rfl⟩
          · rw [hread]
            exact .malformed reason

/-- Every token is read as what it spells, comes to a number of too many digits, or is malformed. -/
theorem verdict_parse (token : Text) : Verdict token (parse token) := by
  rw [parse]
  split
  · next ref wanted hcut =>
    obtain ⟨rfl, hpercent⟩ := Text.cut_eq_some hcut
    exact verdict_parsePattern hpercent
  · next hcut =>
    obtain ⟨ref, numbers, hsplit⟩ := List.exists_cons_of_ne_nil (Text.splitOn_ne_nil ':' token)
    rw [hsplit]
    exact verdict_parseFields (Text.cut_eq_none_iff.1 hcut) hsplit

theorem spells_of_parse (h : parse token = .ok c) : Spells token c := by
  have hverdict := verdict_parse token
  rw [h] at hverdict
  cases hverdict with
  | read hspells _ => exact hspells

theorem eq_of_parse_eq_malformed {other : Text} {reason : Malformed} (h : parse token = .error (.malformed other reason)) :
    other = token := by
  have hverdict := verdict_parse token
  rw [h] at hverdict
  cases hverdict with
  | malformed reason => rfl

theorem trim_ne_nil (h : Text.allBlank ref = false) : Text.trim ref ≠ [] := by
  rw [Ne, Text.trim_eq_nil_iff, h]
  exact Bool.false_ne_true

theorem parse_of_splitOn {numbers : List Text} (hpercent : '%' ∉ token) (hsplit : Text.splitOn ':' token = ref :: numbers) :
    parse token = parseFields token ref numbers := by
  rw [parse, Text.cut_eq_none_iff.2 hpercent]
  dsimp only
  rw [hsplit]
  rfl

theorem NumberFieldsFit.isShort {numbers : List Text} (hfit : NumberFieldsFit token) (hpercent : '%' ∉ token)
    (hsplit : Text.splitOn ':' token = ref :: numbers) (hfield : field ∈ numbers) (h : IsNumeral field) : IsShort field :=
  hfit hpercent field (by rwa [hsplit]) h.digits

theorem parse_of_spells (h : Spells token c) (hfit : NumberFieldsFit token) : parse token = .ok c := by
  cases h with
  | @pattern ref wanted href hpercent hwanted hbracket =>
    simp only [parse, Text.cut_append_cons hpercent, parsePattern, if_neg (trim_ne_nil href), if_neg hwanted, if_neg hbracket]
  | whole href hpercent hcolon =>
    rw [parse_of_splitOn hpercent (Text.splitOn_of_not_mem hcolon)]
    simp [parseFields, trim_ne_nil href]
  | @line ref start href hpercent hcolon hstart =>
    have hnone : '%' ∉ ref ++ ':' :: start := by simp [hpercent, hstart.not_mem (d := '%') rfl rfl]
    have hsplit : Text.splitOn ':' (ref ++ ':' :: start) = [ref, start] := by
      rw [Text.splitOn_append_cons hcolon, Text.splitOn_of_not_mem (hstart.not_mem rfl rfl)]
    have hshort : IsShort start := hfit.isShort hnone hsplit (by simp) hstart
    rw [parse_of_splitOn hnone hsplit]
    simp [parseFields, trim_ne_nil href, parseNumber_of_isShort _ _ hstart hshort, Except.map]
  | @range ref start last href hpercent hcolon hstart hlast =>
    have hnone : '%' ∉ ref ++ ':' :: (start ++ ':' :: last) := by
      simp [hpercent, hstart.not_mem (d := '%') rfl rfl, hlast.not_mem (d := '%') rfl rfl]
    have hsplit : Text.splitOn ':' (ref ++ ':' :: (start ++ ':' :: last)) = [ref, start, last] := by
      rw [Text.splitOn_append_cons hcolon, Text.splitOn_append_cons (hstart.not_mem rfl rfl),
        Text.splitOn_of_not_mem (hlast.not_mem rfl rfl)]
    have hstartShort : IsShort start := hfit.isShort hnone hsplit (by simp) hstart
    have hlastShort : IsShort last := hfit.isShort hnone hsplit (by simp) hlast
    rw [parse_of_splitOn hnone hsplit]
    simp [parseFields, trim_ne_nil href, hstart.not_allBlank, parseNumber_of_isShort _ _ hstart hstartShort,
      parseNumber_of_isShort _ _ hlast hlastShort, bind, Except.bind, pure, Except.pure]

theorem parse_of_overlong (h : Overlong token count) : parse token = .error (.tooManyDigits count) := by
  obtain ⟨hpercent, ref, earlier, field, later, hsplit, hlength, href, hearlier, hfield, hlong, rfl⟩ := h
  rw [parse_of_splitOn hpercent hsplit, parseFields.eq_def, if_neg (Nat.not_lt.2 hlength), if_neg (trim_ne_nil href)]
  cases earlier with
  | nil =>
    cases later with
    | nil => simp [parseNumber_of_not_isShort _ _ hfield hlong, Except.map]
    | cons last rest => simp [hfield.not_allBlank, parseNumber_of_not_isShort _ _ hfield hlong, bind, Except.bind]
  | cons start others =>
    obtain ⟨⟨hstart, hshort⟩, -⟩ := List.forall_mem_cons.1 hearlier
    obtain rfl : others = [] := by
      cases others with
      | nil => rfl
      | cons other rest => simp at hlength
    simp [hstart.not_allBlank, parseNumber_of_isShort _ _ hstart hshort, parseNumber_of_not_isShort _ _ hfield hlong, bind,
      Except.bind]

theorem parse_eq_tooManyDigits_iff : parse token = .error (.tooManyDigits count) ↔ Overlong token count := by
  refine ⟨fun h => ?_, parse_of_overlong⟩
  have hverdict := verdict_parse token
  rw [h] at hverdict
  cases hverdict with
  | overlong hoverlong => exact hoverlong

/-- A token is read or malformed, unless reading it comes to a number of too many digits. -/
theorem read_or_malformed_iff (token : Text) :
    ((∃ c, parse token = .ok c) ∨ ∃ reason, parse token = .error (.malformed token reason)) ↔ ∀ count, ¬ Overlong token count := by
  constructor
  · rintro (⟨c, hread⟩ | ⟨reason, hread⟩) count hoverlong
    · cases hread.symm.trans (parse_of_overlong hoverlong)
    · cases hread.symm.trans (parse_of_overlong hoverlong)
  · intro hnone
    have hverdict := verdict_parse token
    generalize parse token = result at hverdict ⊢
    cases hverdict with
    | @read c _ _ => exact Or.inl ⟨c, rfl⟩
    | @overlong count hoverlong => exact absurd hoverlong (hnone count)
    | malformed reason => exact Or.inr ⟨reason, rfl⟩

theorem overlong_of_digits {digits : Text} (href : Text.allBlank ref = false) (hpercent : '%' ∉ ref) (hcolon : ':' ∉ ref)
    (hdigits : ∀ d ∈ digits, d.isDigit = true) (hlong : Text.digitLimit < digits.length) :
    Overlong (ref ++ ':' :: digits) digits.length := by
  have htrim : Text.trim digits = digits := Text.trim_of_no_blank fun d hd => Text.not_isBlank_of_isDigit (hdigits d hd)
  have hnumeral : IsNumeral digits := by
    refine ⟨?_, htrim.symm ▸ hdigits⟩
    rw [htrim]
    exact List.ne_nil_of_length_pos (Nat.zero_lt_of_lt hlong)
  refine ⟨by simp [hpercent, hnumeral.not_mem (d := '%') rfl rfl], ref, [], digits, [], ?_, by simp, href, by simp, hnumeral, ?_,
    congrArg List.length htrim⟩
  · rw [Text.splitOn_append_cons hcolon, Text.splitOn_of_not_mem (hnumeral.not_mem rfl rfl)]
    rfl
  · rw [IsShort, htrim]
    exact Nat.not_le.2 hlong

theorem Overlong.not_numberFieldsFit (h : Overlong token count) : ¬ NumberFieldsFit token := by
  intro hfit
  obtain ⟨hpercent, ref, earlier, field, later, hsplit, -, -, -, hfield, hlong, -⟩ := h
  exact hlong (hfit.isShort hpercent hsplit (by simp) hfield)

/-- Where no number has too many digits, a token is read as what it spells, and malformed if it spells nothing. -/
theorem parse_of_numberFieldsFit (hfit : NumberFieldsFit token) :
    (∀ c, parse token = .ok c ↔ Spells token c) ∧
      ((∀ c, ¬ Spells token c) → ∃ reason, parse token = .error (.malformed token reason)) := by
  refine ⟨fun c => ⟨fun h => ?_, fun h => parse_of_spells h hfit⟩, fun hnone => ?_⟩
  · have hverdict := verdict_parse token
    rw [h] at hverdict
    cases hverdict with
    | read hspells _ => exact hspells
  · have hverdict := verdict_parse token
    generalize parse token = result at hverdict ⊢
    cases hverdict with
    | read hspells _ => exact absurd hspells (hnone _)
    | overlong h => exact absurd hfit h.not_numberFieldsFit
    | malformed reason => exact ⟨reason, rfl⟩

theorem parse_of_range_pattern_and_foreign_digit :
    parse " a b : 03 :7".toList = .ok ⟨"a b".toList, .range 3 7⟩ ∧ parse "a:b %x%: ".toList = .ok ⟨"a:b".toList, .pattern "x%: ".toList⟩ ∧
      ∃ reason, parse "a:٣".toList = .error (.malformed "a:٣".toList reason) := by
  have hrange : Spells " a b : 03 :7".toList ⟨"a b".toList, .range 3 7⟩ :=
    @Spells.range " a b ".toList " 03 ".toList "7".toList (by decide) (by decide) (by decide) (by decide +kernel)
      (by decide +kernel)
  have hpattern : Spells "a:b %x%: ".toList ⟨"a:b".toList, .pattern "x%: ".toList⟩ :=
    @Spells.pattern "a:b ".toList "x%: ".toList (by decide) (by decide) (by decide) (by decide)
  have hfit : ∀ token : Text, token.length ≤ 12 → NumberFieldsFit token := fun token hlength =>
    numberFieldsFit_of_length_le (hlength.trans (by decide))
  refine ⟨((parse_of_numberFieldsFit (hfit _ (by decide))).1 _).2 hrange,
    ((parse_of_numberFieldsFit (hfit _ (by decide))).1 _).2 hpattern, (parse_of_numberFieldsFit (hfit _ (by decide))).2 fun c hspells => ?_⟩
  have hread := ((parse_of_numberFieldsFit (hfit _ (by decide))).1 c).2 hspells
  have hrefused : parse "a:٣".toList = .error (.malformed "a:٣".toList (.badNumber .start "٣".toList)) := by decide
  cases hrefused.symm.trans hread

end Quotation.Citation
