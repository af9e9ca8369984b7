import Quotation.Citation.Parser
import Quotation.Proofs.Text.Numbers
import Quotation.Proofs.Text.Pieces
import Quotation.Proofs.Text.Trim

/-!
# Writing citations and reading them again

A citation is well-formed if it can be what a token says: its reference is trimmed and free of the characters that end a reference, its line numbers are not negative, its pattern is there and free of closing brackets. Reading produces well-formed citations only (`wellFormed_of_parse`), and the token of a well-formed citation reads as that citation (`parse_token`), so the tokens of citations are a normal form of all tokens that can be read.

Numbers with too many digits can be written but not read. `NumbersFit` leaves them out; no citation that was read has any.
-/

namespace Quotation.Citation

def FewDigits (number : Int) : Prop := (Nat.toDigits 10 number.natAbs).length ≤ Text.digitLimit

/-- Whether the line numbers of a citation have few enough digits to be read. -/
def NumbersFit (c : Citation) : Prop :=
  match c.passage with
  | .line number => FewDigits number
  | .range first last => FewDigits first ∧ FewDigits last
  | .whole => True
  | .pattern _ => True

/-! ### Line numbers -/

theorem not_mem_ofInt {number : Int} (hnumber : 0 ≤ number) {c : Char} (hc : c.isDigit = false) : c ∉ Text.ofInt number := by
  obtain ⟨n, rfl⟩ := Int.eq_ofNat_of_zero_le hnumber
  intro hmem
  rw [Text.ofInt_natCast] at hmem
  simp [Text.isDigit_of_mem_toDigits hmem] at hc

theorem allBlank_ofInt {number : Int} (hnumber : 0 ≤ number) : Text.allBlank (Text.ofInt number) = false := by
  obtain ⟨n, rfl⟩ := Int.eq_ofNat_of_zero_le hnumber
  rw [Text.ofInt_natCast, Text.allBlank, List.all_eq_false]
  obtain ⟨c, hc⟩ := List.exists_mem_of_ne_nil (Nat.toDigits 10 n) Nat.toDigits_ne_nil
  exact ⟨c, hc, by simp [Text.not_isBlank_of_isDigit (Text.isDigit_of_mem_toDigits hc)]⟩

theorem parseNumber_ofInt (token : Text) (bound : Bound) {number : Int} (hnumber : 0 ≤ number) (hfew : FewDigits number) :
    parseNumber token bound (Text.ofInt number) = .ok number := by
  obtain ⟨n, rfl⟩ := Int.eq_ofNat_of_zero_le hnumber
  have htrim : Text.trim (Nat.toDigits 10 n) = Nat.toDigits 10 n :=
    Text.trim_of_no_blank fun c hc => Text.not_isBlank_of_isDigit (Text.isDigit_of_mem_toDigits hc)
  have hdigits : Nat.toDigits 10 n ≠ [] ∧ (Nat.toDigits 10 n).all Char.isDigit = true :=
    ⟨Nat.toDigits_ne_nil, List.all_eq_true.2 fun c hc => Text.isDigit_of_mem_toDigits hc⟩
  have hlength : (Nat.toDigits 10 n).length ≤ Text.digitLimit := hfew
  simp only [parseNumber, Text.ofInt_natCast, htrim, if_pos hdigits, if_pos hlength, Text.natOfDigits_toDigits]

theorem parseNumber_eq_ok {token field : Text} {bound : Bound} {number : Int}
    (h : parseNumber token bound field = .ok number) : 0 ≤ number ∧ FewDigits number := by
  simp only [parseNumber] at h
  split at h
  · next hdigits =>
    split at h
    · next hlength =>
      obtain rfl := Except.ok.inj h
      refine ⟨Int.natCast_nonneg _, ?_⟩
      exact (Text.length_toDigits_natOfDigits_le hdigits.1 (by simpa using hdigits.2)).trans hlength
    · cases h
  · cases h

/-! ### Reading gives well-formed citations -/

theorem wellFormed_of_parsePattern {token ref wanted : Text} {c : Citation} (hpercent : '%' ∉ ref)
    (h : parsePattern token ref wanted = .ok c) : c.WellFormed ∧ c.NumbersFit := by
  rw [parsePattern] at h
  split at h
  · cases h
  · next href =>
    split at h
    · cases h
    · next hwanted =>
      split at h
      · cases h
      · next hbracket =>
        obtain rfl := Except.ok.inj h
        refine ⟨⟨href, Text.trim_trim ref, fun hmem => hpercent (Text.mem_of_mem_trim hmem), ?_, hwanted, hbracket⟩, trivial⟩
        simp [pattern?]

theorem wellFormed_of_parseFields {token ref : Text} {numbers : List Text} {c : Citation} (hpercent : '%' ∉ ref)
    (hcolon : ':' ∉ ref) (h : parseFields token ref numbers = .ok c) : c.WellFormed ∧ c.NumbersFit := by
  rw [parseFields.eq_def] at h
  split at h
  · cases h
  · split at h
    · cases h
    · next href =>
      have hwell : ∀ passage : Passage, Passage.WellFormed passage → (Citation.mk (Text.trim ref) passage).WellFormed :=
        fun passage hpassage => ⟨href, Text.trim_trim ref, fun hmem => hpercent (Text.mem_of_mem_trim hmem),
          fun _ hmem => hcolon (Text.mem_of_mem_trim hmem), hpassage⟩
      rcases numbers with _ | ⟨start, _ | ⟨last, rest⟩⟩
      · obtain rfl := Except.ok.inj h
        exact ⟨hwell _ trivial, trivial⟩
      · dsimp only at h
        cases hstart : parseNumber token .start start with
        | error e => simp [hstart, Except.map] at h
        | ok number =>
          rw [hstart] at h
          obtain rfl := Except.ok.inj h
          obtain ⟨hnumber, hfew⟩ := parseNumber_eq_ok hstart
          exact ⟨hwell _ hnumber, hfew⟩
      · dsimp only at h
        split at h
        · cases h
        · cases hstart : parseNumber token .start start with
          | error e => simp [hstart, bind, Except.bind] at h
          | ok first =>
            cases hlast : parseNumber token .last last with
            | error e => simp [hstart, hlast, bind, Except.bind] at h
            | ok final =>
              rw [hstart, hlast] at h
              obtain rfl := Except.ok.inj h
              obtain ⟨hfirst, hfewFirst⟩ := parseNumber_eq_ok hstart
              obtain ⟨hfinal, hfewFinal⟩ := parseNumber_eq_ok hlast
              exact ⟨hwell _ ⟨hfirst, hfinal⟩, hfewFirst, hfewFinal⟩

theorem wellFormed_of_parse {token : Text} {c : Citation} (h : parse token = .ok c) :
    c.WellFormed ∧ c.NumbersFit := by
  rw [parse] at h
  split at h
  · next ref wanted hcut => exact wellFormed_of_parsePattern (Text.cut_eq_some hcut).2 h
  · next hcut =>
    have hpercent : '%' ∉ token := Text.cut_eq_none_iff.1 hcut
    cases hsplit : Text.splitOn ':' token with
    | nil => exact absurd hsplit (Text.splitOn_ne_nil ':' token)
    | cons ref numbers =>
      have hmem : ref ∈ Text.splitOn ':' token := by simp [hsplit]
      simp only [hsplit, List.headD_cons, List.tail_cons] at h
      exact wellFormed_of_parseFields (fun href => hpercent (Text.mem_of_mem_splitOn hmem href))
        (Text.not_mem_of_mem_splitOn hmem) h

/-! ### The token of a citation -/

theorem parse_token {c : Citation} (hwell : c.WellFormed) (hfit : c.NumbersFit) : parse c.token = .ok c := by
  obtain ⟨ref, passage⟩ := c
  obtain ⟨href, htrim, hpercent, hcolon, hpassage⟩ := hwell
  dsimp only at href htrim hpercent hfit hpassage
  cases passage with
  | pattern wanted =>
    obtain ⟨hwanted, hbracket⟩ := hpassage
    simp only [token, parse, Text.cut_append_cons hpercent, parsePattern, htrim, if_neg href, if_neg hwanted, if_neg hbracket]
  | whole =>
    have hcolon : ':' ∉ ref := hcolon rfl
    simp [token, parse, Text.cut_eq_none_iff.2 hpercent, Text.splitOn_of_not_mem hcolon, parseFields, htrim, href]
  | line number =>
    have hcolon : ':' ∉ ref := hcolon rfl
    have hcut : Text.cut '%' (ref ++ ':' :: Text.ofInt number) = none := by
      rw [Text.cut_eq_none_iff]
      simp [hpercent, not_mem_ofInt hpassage (show '%'.isDigit = false from rfl)]
    have hfields : Text.splitOn ':' (ref ++ ':' :: Text.ofInt number) = [ref, Text.ofInt number] := by
      rw [Text.splitOn_append_cons hcolon, Text.splitOn_of_not_mem (not_mem_ofInt hpassage rfl)]
    simp [token, parse, hcut, hfields, parseFields, htrim, href, parseNumber_ofInt _ _ hpassage hfit, Except.map]
  | range first last =>
    have hcolon : ':' ∉ ref := hcolon rfl
    obtain ⟨hfirst, hlast⟩ := hpassage
    have hcut : Text.cut '%' (ref ++ ':' :: (Text.ofInt first ++ ':' :: Text.ofInt last)) = none := by
      rw [Text.cut_eq_none_iff]
      simp [hpercent, not_mem_ofInt hfirst (show '%'.isDigit = false from rfl),
        not_mem_ofInt hlast (show '%'.isDigit = false from rfl)]
    have hfields : Text.splitOn ':' (ref ++ ':' :: (Text.ofInt first ++ ':' :: Text.ofInt last)) =
        [ref, Text.ofInt first, Text.ofInt last] := by
      rw [Text.splitOn_append_cons hcolon, Text.splitOn_append_cons (not_mem_ofInt hfirst rfl),
        Text.splitOn_of_not_mem (not_mem_ofInt hlast rfl)]
    have hstart : Text.allBlank (Text.ofInt first) = false := allBlank_ofInt hfirst
    simp [token, parse, hcut, hfields, parseFields, htrim, href, hstart, parseNumber_ofInt _ _ hfirst hfit.1,
      parseNumber_ofInt _ _ hlast hfit.2, bind, Except.bind, pure, Except.pure]

theorem parseMarker_enclosed (body : Text) : parseMarker ('[' :: body ++ [']']) = parse body := by
  have htrim : Text.trim ('[' :: body ++ [']']) = '[' :: body ++ [']'] := Text.trim_enclosed (by decide) (by decide) body
  have henclosed : isEnclosed ('[' :: body ++ [']']) = true := by simp [isEnclosed, List.getLast?_cons]
  have hinside : (('[' :: body ++ [']']).drop 1).dropLast = body := by simp
  simp only [parseMarker, htrim, if_pos henclosed, hinside]

theorem parseMarker_marker (c : Citation) : parseMarker c.marker = parse c.token := parseMarker_enclosed c.token

/-- Reading and writing are inverse to each other exactly on the well-formed citations, and these are the ones that are read from tokens. -/
theorem parse_token_eq_ok_iff :
    (∀ c : Citation, c.NumbersFit →
      (parse c.token = .ok c ↔ c.WellFormed) ∧ (parseMarker c.marker = .ok c ↔ c.WellFormed)) ∧
    ∀ token c, parse token = .ok c → c.WellFormed ∧ parse c.token = .ok c ∧ parseMarker c.marker = .ok c := by
  refine ⟨fun c hfit => ?_, fun token c h => ?_⟩
  · have hiff : parse c.token = .ok c ↔ c.WellFormed :=
      ⟨fun h => (wellFormed_of_parse h).1, fun hwell => parse_token hwell hfit⟩
    exact ⟨hiff, by rw [parseMarker_marker, hiff]⟩
  · obtain ⟨hwell, hfit⟩ := wellFormed_of_parse h
    exact ⟨hwell, parse_token hwell hfit, by rw [parseMarker_marker, parse_token hwell hfit]⟩

theorem parse_token_of_range_and_of_percent :
    let range : Citation := ⟨"docs/a b.md".toList, .range 3 12⟩
    let percent : Citation := ⟨"a%b".toList, .line 7⟩
    parse " docs/a b.md : 03 :12".toList = .ok range ∧ range.WellFormed ∧ parse range.token = .ok range ∧
      parseMarker range.marker = .ok range ∧ percent.NumbersFit ∧ ¬ percent.WellFormed ∧
      parse percent.token ≠ .ok percent ∧ parseMarker percent.marker ≠ .ok percent := by
  intro range percent
  have hparse : parse " docs/a b.md : 03 :12".toList = .ok range := by decide
  have hfit : percent.NumbersFit := show (Nat.toDigits 10 7).length ≤ Text.digitLimit by decide
  have hill : ¬ percent.WellFormed := fun h => h.2.2.1 (by decide)
  obtain ⟨hwell, htoken, hmarker⟩ := parse_token_eq_ok_iff.2 _ range hparse
  obtain ⟨htokenIff, hmarkerIff⟩ := parse_token_eq_ok_iff.1 percent hfit
  exact ⟨hparse, hwell, htoken, hmarker, hfit, hill, fun h => hill (htokenIff.1 h), fun h => hill (hmarkerIff.1 h)⟩

end Quotation.Citation
