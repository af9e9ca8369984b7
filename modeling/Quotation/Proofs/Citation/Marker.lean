import Quotation.Proofs.Citation.RoundTrip
import Quotation.Proofs.Citation.Spelling
import Quotation.Proofs.Segment.Segmentation

/-!
# Markers in a line and markers alone

A marker is read in two ways: splitting finds it in a line, and `parseMarker` takes a text that is to be one marker as a whole. What splitting finds between brackets is an `IsBody`, and a text in brackets is split into a single marker exactly if it is one (`split_enclosed_iff`). `parseMarker` looks at the first and the last character only, so it also reads texts with brackets in between (`parseMarker_agrees_with_split`).

Reading a body and writing it again takes away blanks and leading zeros, and this brings no bracket to light: the canonical marker of a citation that was found in a line is a marker again (`split_marker_of_mem_split`).
-/

namespace Quotation

namespace Segment

/-- An opening bracket comes right behind a backslash. -/
def Escapes (before c : Char) : Prop := c = '[' → before = '\\'

/-- What may stand between the brackets of a marker: something, with no closing bracket and with no opening one that is not escaped. -/
structure IsBody (body : Text) : Prop where
  ne_nil : body ≠ []
  no_closing : ']' ∉ body
  escaped : ('[' :: body).IsChain Escapes

variable {before : Bool} {line body ref rest tail : Text} {segments : List Segment}

/-! ### Bodies and brackets -/

theorem closesAt_length_iff (p : Char) (body rest : Text) :
    ClosesAt (p = '\\') (body ++ ']' :: rest) body.length ↔ ']' ∉ body ∧ (p :: body).IsChain Escapes := by
  induction body generalizing p with
  | nil => simp [closesAt_cons_zero]
  | cons c cs ih =>
    rw [List.cons_append, List.length_cons, closesAt_cons_succ, ih, List.mem_cons, not_or, List.isChain_cons_cons, Escapes]
    constructor
    · rintro ⟨hc, hopen, hclosing, hchain⟩
      exact ⟨⟨Ne.symm hc, hclosing⟩, fun h => by simpa using hopen h, hchain⟩
    · rintro ⟨⟨hc, hclosing⟩, hopen, hchain⟩
      exact ⟨Ne.symm hc, fun h => by simpa using hopen h, hclosing, hchain⟩

theorem isBody_iff_closesAt (body rest : Text) :
    IsBody body ↔ body ≠ [] ∧ ClosesAt false (body ++ ']' :: rest) body.length := by
  have hcloses : ClosesAt false (body ++ ']' :: rest) body.length ↔ ']' ∉ body ∧ ('[' :: body).IsChain Escapes :=
    closesAt_length_iff '[' body rest
  rw [hcloses]
  exact ⟨fun h => ⟨h.ne_nil, h.no_closing, h.escaped⟩, fun ⟨hne, hclosing, hescaped⟩ => ⟨hne, hclosing, hescaped⟩⟩

theorem marker_mem_consText_iff (c : Char) (body : Text) (segments : List Segment) :
    .marker body ∈ consText c segments ↔ .marker body ∈ segments := by
  fun_cases consText c segments <;> simp

theorem isBody_of_mem_scan (before : Bool) (line : Text) :
    (∀ body, .marker body ∈ (scan before line).segments → IsBody body) ∧
      ∀ inner after, (scan before line).closing = some (inner, after) → ∀ body, .marker body ∈ after → IsBody body := by
  induction line generalizing before with
  | nil => simp [scan]
  | cons c cs ih =>
    obtain ⟨houtside, hinside⟩ := ih (c = '\\')
    have hmore : ∀ body, .marker body ∈ consText c (scan (c = '\\') cs).segments → IsBody body :=
      fun body hbody => houtside body ((marker_mem_consText_iff c body _).1 hbody)
    rw [scan]
    split
    · refine ⟨hmore, fun inner after h => ?_⟩
      obtain ⟨-, rfl⟩ : [] = inner ∧ (scan (c = '\\') cs).segments = after := by simpa using h
      exact houtside
    · split
      · next hopen =>
        obtain ⟨rfl, -⟩ := hopen
        split
        · next found after hclosing =>
          refine ⟨?_, by simp⟩
          dsimp only
          split
          · exact hmore
          · next hne =>
            intro body hbody
            obtain hsame | hbody := List.mem_cons.1 hbody
            · obtain rfl : body = found := by simpa using hsame
              obtain ⟨rest, rfl, hclose, -⟩ := closing_scan_eq_some hclosing
              exact (isBody_iff_closesAt body rest).2 ⟨hne, hclose⟩
            · exact hinside found after hclosing body hbody
        · exact ⟨hmore, by simp⟩
      · refine ⟨hmore, fun inner after h => ?_⟩
        obtain ⟨⟨found, others⟩, hfound, hpair⟩ := Option.map_eq_some_iff.1 h
        simp only [Prod.mk.injEq] at hpair
        exact hpair.2 ▸ hinside found others hfound

theorem isBody_of_mem_split (h : .marker body ∈ split line) : IsBody body := by
  rw [split] at h
  split at h
  · simp at h
  · exact (isBody_of_mem_scan false line).1 body h

/-- A text in brackets is a single marker exactly if what stands between them is a body. -/
theorem split_enclosed_iff (body : Text) : split (marker body).toText = [.marker body] ↔ IsBody body := by
  constructor
  · intro h
    have hmem : .marker body ∈ split (marker body).toText := by simp [h]
    exact isBody_of_mem_split hmem
  · intro h
    obtain ⟨hne, hclose⟩ := (isBody_iff_closesAt body []).1 h
    exact split_enclosed hne hclose

theorem eq_toText_of_split (h : split line = [.marker body]) : line = (marker body).toText := by
  rw [← joinAll_split line, h, joinAll_cons, joinAll_nil, List.append_nil]

/-! ### Bodies without blanks -/

theorem isChain_escapes_of_not_mem {t : Text} (h : '[' ∉ t) : t.IsChain Escapes := by
  rw [List.isChain_iff_forall_rel_of_append_cons_cons]
  rintro p c front back rfl rfl
  simp at h

/-- Behind an opening bracket, blanks make no difference: a bracket behind them would not be escaped. -/
theorem isChain_trim (h : ('[' :: ref).IsChain Escapes) : ('[' :: Text.trim ref).IsChain Escapes := by
  have hleft : ('[' :: Text.trimLeft ref).IsChain Escapes := by
    have hcut : '[' :: ref = ('[' :: ref.takeWhile Text.isBlank) ++ Text.trimLeft ref := by
      rw [Text.trimLeft, List.cons_append, List.takeWhile_append_dropWhile]
    rw [hcut, List.isChain_append] at h
    obtain ⟨-, hrest, hjoint⟩ := h
    refine List.isChain_cons.2 ⟨fun c hc hopen => ?_, hrest⟩
    have hlast := List.getLast?_eq_some_getLast (List.cons_ne_nil '[' (ref.takeWhile Text.isBlank))
    have hbackslash := hjoint _ hlast c hc hopen
    obtain hfirst | hblank := List.mem_cons.1 (List.getLast_mem (List.cons_ne_nil '[' (ref.takeWhile Text.isBlank)))
    · exact hfirst.symm.trans hbackslash
    · have hisBlank := List.mem_takeWhile_imp hblank
      rw [hbackslash] at hisBlank
      exact absurd hisBlank (by decide)
  exact hleft.prefix (List.cons_prefix_cons.2 ⟨rfl, Text.trimRight_isPrefix (Text.trimLeft ref)⟩)

theorem IsBody.trim_append (h : IsBody (ref ++ rest)) (href : Text.trim ref ≠ []) (hclosing : ']' ∉ tail)
    (htail : tail.IsChain Escapes) (hhead : tail.head? ≠ some '[') : IsBody (Text.trim ref ++ tail) := by
  have hescaped : ('[' :: ref).IsChain Escapes := h.escaped.prefix ⟨rest, rfl⟩
  refine ⟨by simp [href], ?_, ?_⟩
  · rw [List.mem_append, not_or]
    exact ⟨fun hmem => h.no_closing (List.mem_append_left _ (Text.mem_of_mem_trim hmem)), hclosing⟩
  · rw [← List.cons_append, List.isChain_append]
    refine ⟨isChain_trim hescaped, htail, fun p _ c hc hopen => absurd ?_ hhead⟩
    rw [← hopen]
    exact hc

end Segment

namespace Citation

open Segment

variable {line body : Text} {c : Citation} {s : Text}

/-! ### Two readers of a marker -/

theorem isEnclosed_iff (t : Text) : isEnclosed t = true ↔ ∃ body, t = (Segment.marker body).toText := by
  constructor
  · intro h
    obtain ⟨⟨hlength, hfirst⟩, hlast⟩ : (2 ≤ t.length ∧ t.head? = some '[') ∧ t.getLast? = some ']' := by
      simpa [isEnclosed] using h
    obtain ⟨inner, rfl⟩ := List.head?_eq_some_iff.1 hfirst
    obtain ⟨body, hbody⟩ := List.getLast?_eq_some_iff.1 hlast
    cases body with
    | nil =>
      rw [hbody] at hlength
      simp at hlength
    | cons d body =>
      obtain ⟨rfl, rfl⟩ : '[' = d ∧ inner = body ++ [']'] := by simpa using hbody
      exact ⟨body, rfl⟩
  · rintro ⟨body, rfl⟩
    simp [isEnclosed, toText, List.getLast?_cons]

/-- A text is read as a marker if it stands in brackets, whatever brackets are in between. -/
theorem parseMarker_eq_ok_iff :
    parseMarker s = .ok c ↔ ∃ body, Text.trim s = (Segment.marker body).toText ∧ parse body = .ok c := by
  constructor
  · intro h
    rw [parseMarker] at h
    split at h
    · next henclosed =>
      obtain ⟨body, hbody⟩ := (isEnclosed_iff _).1 henclosed
      refine ⟨body, hbody, ?_⟩
      rw [hbody] at h
      simpa [toText] using h
    · cases h
  · rintro ⟨body, hbody, hparse⟩
    rw [parseMarker, if_pos ((isEnclosed_iff _).2 ⟨body, hbody⟩), hbody]
    simpa [toText] using hparse

/-- The reader of a single marker takes the texts in brackets that read as a citation between them. Splitting takes those of them for a single marker that have no closing bracket in between and no opening one that is not escaped. -/
theorem parseMarker_agrees_with_split (s : Text) (c : Citation) :
    (parseMarker s = .ok c ↔ ∃ body, Text.trim s = (Segment.marker body).toText ∧ parse body = .ok c) ∧
      ((∃ body, split (Text.trim s) = [.marker body] ∧ parse body = .ok c) ↔
        parseMarker s = .ok c ∧ ∀ body, Text.trim s = (Segment.marker body).toText → IsBody body) := by
  refine ⟨parseMarker_eq_ok_iff, ?_⟩
  constructor
  · rintro ⟨body, hsplit, hparse⟩
    have hwhole := eq_toText_of_split hsplit
    refine ⟨parseMarker_eq_ok_iff.2 ⟨body, hwhole, hparse⟩, fun other hother => ?_⟩
    obtain rfl : body = other := by simpa [toText] using hwhole.symm.trans hother
    rw [hwhole] at hsplit
    exact (split_enclosed_iff body).1 hsplit
  · rintro ⟨hread, hbodies⟩
    obtain ⟨body, hwhole, hparse⟩ := parseMarker_eq_ok_iff.1 hread
    refine ⟨body, ?_, hparse⟩
    rw [hwhole]
    exact (split_enclosed_iff body).2 (hbodies body hwhole)

/-- Two markers with text between them are read as a citation of one file with brackets in its name. -/
theorem exists_markers_read_as_one :
    parseMarker "[a] ... [b]".toList = .ok ⟨"a] ... [b".toList, .whole⟩ ∧
      split (Text.trim "[a] ... [b]".toList) = [.marker "a".toList, .text " ... ".toList, .marker "b".toList] ∧
      ¬ ∃ body, split (Text.trim "[a] ... [b]".toList) = [.marker body] ∧
        parse body = .ok ⟨"a] ... [b".toList, .whole⟩ := by
  have hsplit : split (Text.trim "[a] ... [b]".toList) = [.marker "a".toList, .text " ... ".toList, .marker "b".toList] := by
    decide +kernel
  refine ⟨by decide +kernel, hsplit, ?_⟩
  rintro ⟨body, hsingle, -⟩
  cases hsplit.symm.trans hsingle

/-! ### Canonical markers -/

theorem no_bracket_colon_ofInt {number : Int} (hnumber : 0 ≤ number) :
    ']' ∉ ':' :: Text.ofInt number ∧ '[' ∉ ':' :: Text.ofInt number := by
  simp [not_mem_ofInt hnumber (show ']'.isDigit = false from rfl), not_mem_ofInt hnumber (show '['.isDigit = false from rfl)]

theorem Spells.isBody_token (h : Spells body c) (hbody : IsBody body) : IsBody c.token := by
  have hvalue : ∀ field, 0 ≤ numeralValue field := fun field => Int.natCast_nonneg _
  cases h with
  | whole href _ _ =>
    have hwhole : IsBody (body ++ []) := by simpa using hbody
    have htrim : IsBody (Text.trim body ++ []) := hwhole.trim_append (trim_ne_nil href) (by simp) .nil (by simp)
    simpa [token] using htrim
  | line href _ _ _ =>
    obtain ⟨hclosing, hopening⟩ := no_bracket_colon_ofInt (hvalue _)
    exact hbody.trim_append (trim_ne_nil href) hclosing (isChain_escapes_of_not_mem hopening) (by simp)
  | @range _ start last href _ _ _ _ =>
    obtain ⟨hclosingStart, hopeningStart⟩ := no_bracket_colon_ofInt (hvalue start)
    obtain ⟨hclosingLast, hopeningLast⟩ := no_bracket_colon_ofInt (hvalue last)
    have hclosing : ']' ∉ (':' :: Text.ofInt (numeralValue start)) ++ ':' :: Text.ofInt (numeralValue last) := by
      rw [List.mem_append, not_or]
      exact ⟨hclosingStart, hclosingLast⟩
    have hopening : '[' ∉ (':' :: Text.ofInt (numeralValue start)) ++ ':' :: Text.ofInt (numeralValue last) := by
      rw [List.mem_append, not_or]
      exact ⟨hopeningStart, hopeningLast⟩
    have htrim := hbody.trim_append (trim_ne_nil href) hclosing (isChain_escapes_of_not_mem hopening) (by simp)
    simpa [token] using htrim
  | @pattern ref wanted href _ _ _ =>
    have hpattern : '%' :: wanted <:+ ref ++ '%' :: wanted := List.suffix_append ref _
    exact hbody.trim_append (trim_ne_nil href) (fun h => hbody.no_closing (hpattern.mem h))
      (hbody.escaped.suffix (hpattern.trans (List.suffix_cons '[' _))) (by simp)

/-- A marker that was found in a line means a citation whose own marker is split into that marker alone, and its body reads as the same citation. -/
theorem split_marker_of_mem_split (hmem : .marker body ∈ split line) (hread : parse body = .ok c) :
    split c.marker = [.marker c.token] ∧ (Segment.marker c.token).toText = c.marker ∧ parse c.token = .ok c := by
  have hbody : IsBody c.token := (spells_of_parse hread).isBody_token (isBody_of_mem_split hmem)
  obtain ⟨hwell, hfit⟩ := wellFormed_of_parse hread
  exact ⟨(split_enclosed_iff c.token).2 hbody, rfl, parse_token hwell hfit⟩

theorem split_marker_of_escaped_bracket :
    .marker " a\\[b : 007 ".toList ∈ split "see [ a\\[b : 007 ] x".toList ∧
      parse " a\\[b : 007 ".toList = .ok ⟨"a\\[b".toList, .line 7⟩ ∧
      split "[a\\[b:7]".toList = [.marker "a\\[b:7".toList] ∧ parse "a\\[b:7".toList = .ok ⟨"a\\[b".toList, .line 7⟩ := by
  have hmem : .marker " a\\[b : 007 ".toList ∈ split "see [ a\\[b : 007 ] x".toList := by decide +kernel
  have hread : parse " a\\[b : 007 ".toList = .ok ⟨"a\\[b".toList, .line 7⟩ := by decide +kernel
  obtain ⟨hsplit, -, hagain⟩ := split_marker_of_mem_split hmem hread
  exact ⟨hmem, hread, hsplit, hagain⟩

end Citation

end Quotation
