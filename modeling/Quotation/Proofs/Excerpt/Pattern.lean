import Quotation.Excerpt
import Quotation.Proofs.Text.Search
import Quotation.Proofs.Text.Trim

/-!
# What a pattern leads to

The first line that contains a pattern decides (`LeadsTo`), by what follows the first occurrence of the pattern on it. Text there that is not blank is the quote. Otherwise the line opens a fence, and the lines up to the next one with the pattern are the quote (`Fenced`), or all that is left if there is none. Lines behind the end of the fence are not looked at.
-/

namespace Quotation.Excerpt

/-- The first of the lines with the pattern is `line`, and what follows the pattern on it is `payload`. -/
structure LeadsTo (wanted : Text) (lines above : List Text) (line : Text) (below : List Text) (payload : Text) : Prop where
  lines : lines = above ++ line :: below
  above : ∀ other ∈ above, ¬ wanted <:+: other
  line : ∃ before, Text.OccursFirst wanted line before payload

/-- The lines begin with `quoted`, which is without the pattern, and go on with a line with it or not at all. -/
structure Fenced (wanted : Text) (lines quoted rest : List Text) : Prop where
  lines : lines = quoted ++ rest
  quoted : ∀ other ∈ quoted, ¬ wanted <:+: other
  rest : ∀ closing ∈ rest.head?, wanted <:+: closing

variable {target wanted line payload : Text} {lines above below quoted rest : List Text}

/-! ### The lines that count -/

theorem ofPattern_append (h : ∀ other ∈ above, ¬ wanted <:+: other) (below : List Text) :
    ofPattern target wanted (above ++ below) = ofPattern target wanted below := by
  induction above with
  | nil => rfl
  | cons other above ih =>
    obtain ⟨hother, habove⟩ := List.forall_mem_cons.1 h
    rw [List.cons_append, ofPattern, Text.after?_eq_none_iff.2 hother]
    exact ih habove

theorem ofPattern_of_missing (h : ∀ line ∈ lines, ¬ wanted <:+: line) :
    ofPattern target wanted lines = .error (.patternNotFound target wanted) := by
  rw [← List.append_nil lines, ofPattern_append h]
  rfl

theorem ofPattern_of_leadsTo (h : LeadsTo wanted lines above line below payload) :
    ofPattern target wanted lines =
      if Text.allBlank payload then .ok (Text.join '\n' (below.takeWhile fun next => !Text.contains wanted next))
      else .ok (Text.trimLeft payload) := by
  obtain ⟨rfl, habove, hline⟩ := h
  rw [ofPattern_append habove, ofPattern, Text.after?_eq_some_iff.2 hline]

theorem takeWhile_of_fenced (h : Fenced wanted lines quoted rest) :
    lines.takeWhile (fun next => !Text.contains wanted next) = quoted := by
  obtain ⟨rfl, hquoted, hrest⟩ := h
  have hopen : ∀ next ∈ quoted, (!Text.contains wanted next) = true := by
    intro next hnext
    rw [Bool.not_eq_true', Bool.eq_false_iff, Ne, Text.contains_iff]
    exact hquoted next hnext
  rw [List.takeWhile_append_of_pos hopen]
  cases rest with
  | nil => simp
  | cons closing later =>
    have hclosing : Text.contains wanted closing = true := Text.contains_iff.2 (hrest closing rfl)
    simp [hclosing]

/-! ### Where the quote is found -/

theorem exists_leadsTo (h : ∃ line ∈ lines, wanted <:+: line) :
    ∃ above line below payload, LeadsTo wanted lines above line below payload := by
  induction lines with
  | nil => simp at h
  | cons first rest ih =>
    cases hafter : Text.after? wanted first with
    | some payload => exact ⟨[], first, rest, payload, rfl, by simp, Text.after?_eq_some_iff.1 hafter⟩
    | none =>
      have hfirst := Text.after?_eq_none_iff.1 hafter
      have hrest : ∃ line ∈ rest, wanted <:+: line := by simpa [hfirst] using h
      obtain ⟨above, line, below, payload, hlines, habove, hline⟩ := ih hrest
      exact ⟨first :: above, line, below, payload, by rw [hlines]; rfl, by simpa [hfirst] using habove, hline⟩

theorem exists_fenced (wanted : Text) (lines : List Text) : ∃ quoted rest, Fenced wanted lines quoted rest := by
  induction lines with
  | nil => exact ⟨[], [], rfl, by simp, by simp⟩
  | cons first later ih =>
    by_cases hfirst : wanted <:+: first
    · exact ⟨[], first :: later, rfl, by simp, by simpa using hfirst⟩
    · obtain ⟨quoted, rest, hlines, hquoted, hrest⟩ := ih
      exact ⟨first :: quoted, rest, by rw [hlines]; rfl, by simpa [hfirst] using hquoted, hrest⟩

theorem exists_trimLeft_eq_cons (h : Text.allBlank payload = false) :
    ∃ c rest, Text.trimLeft payload = c :: rest ∧ Text.isBlank c = false := by
  have hne : payload.dropWhile Text.isBlank ≠ [] := by
    intro hnil
    simp [(Text.trimLeft_eq_nil_iff payload).1 hnil] at h
  exact ⟨_, _, (List.cons_head_tail hne).symm, List.head_dropWhile_not Text.isBlank hne⟩

/-! ### Quoting by pattern -/

theorem extract_pattern (ref wanted : Text) (lines : List Text) :
    extract lines ⟨ref, .pattern wanted⟩ = ofPattern ref wanted lines := rfl

structure QuotesByPattern (ref wanted : Text) (lines : List Text) : Prop where
  missing : extract lines ⟨ref, .pattern wanted⟩ = .error (.patternNotFound ref wanted) ↔ ∀ line ∈ lines, ¬ wanted <:+: line
  found : (∃ line ∈ lines, wanted <:+: line) → ∃ above line below payload, LeadsTo wanted lines above line below payload
  /-- The quote is the end of the line, from the first character behind the pattern that is not blank. -/
  payload : ∀ above line below payload, LeadsTo wanted lines above line below payload → Text.allBlank payload = false →
    extract lines ⟨ref, .pattern wanted⟩ = .ok (Text.trimLeft payload) ∧ Text.trimLeft payload <:+ line ∧
      ∃ c rest, Text.trimLeft payload = c :: rest ∧ Text.isBlank c = false
  fence : ∀ above line below payload, LeadsTo wanted lines above line below payload → Text.allBlank payload = true →
    ∃ quoted rest, Fenced wanted below quoted rest ∧ extract lines ⟨ref, .pattern wanted⟩ = .ok (Text.join '\n' quoted)
  /-- What follows the end of the fence makes no difference. -/
  behind : ∀ above line quoted closing rest payload,
    LeadsTo wanted lines above line (quoted ++ closing :: rest) payload → Text.allBlank payload = true →
    Fenced wanted (quoted ++ closing :: rest) quoted (closing :: rest) → ∀ other,
    extract (above ++ line :: (quoted ++ closing :: other)) ⟨ref, .pattern wanted⟩ = extract lines ⟨ref, .pattern wanted⟩

theorem quotesByPattern (ref wanted : Text) (lines : List Text) : QuotesByPattern ref wanted lines where
  missing := by
    refine ⟨fun h line hline hmem => ?_, ofPattern_of_missing⟩
    obtain ⟨above, line, below, payload, hleads⟩ := exists_leadsTo ⟨line, hline, hmem⟩
    rw [extract_pattern, ofPattern_of_leadsTo hleads] at h
    split at h <;> cases h
  found := exists_leadsTo
  payload above line below payload hleads hpayload := by
    obtain ⟨before, hline⟩ := hleads.line
    have hsuffix : payload <:+ line := ⟨before ++ wanted, hline.split.symm⟩
    refine ⟨?_, (List.dropWhile_suffix Text.isBlank).trans hsuffix, exists_trimLeft_eq_cons hpayload⟩
    rw [extract_pattern, ofPattern_of_leadsTo hleads, hpayload]
    rfl
  fence above line below payload hleads hpayload := by
    obtain ⟨quoted, rest, hfenced⟩ := exists_fenced wanted below
    refine ⟨quoted, rest, hfenced, ?_⟩
    rw [extract_pattern, ofPattern_of_leadsTo hleads, if_pos hpayload, takeWhile_of_fenced hfenced]
  behind above line quoted closing rest payload hleads hpayload hfenced other := by
    have hother : LeadsTo wanted (above ++ line :: (quoted ++ closing :: other)) above line (quoted ++ closing :: other) payload :=
      ⟨rfl, hleads.above, hleads.line⟩
    have hfenced' : Fenced wanted (quoted ++ closing :: other) quoted (closing :: other) := ⟨rfl, hfenced.quoted, hfenced.rest⟩
    rw [extract_pattern, extract_pattern, ofPattern_of_leadsTo hleads, ofPattern_of_leadsTo hother, takeWhile_of_fenced hfenced,
      takeWhile_of_fenced hfenced']

theorem quotesByPattern_of_payload_and_fence :
    let wanted := "# q".toList
    extract ["x".toList, "a # q\t # q b ".toList, "c".toList] ⟨"f".toList, .pattern wanted⟩ = .ok "# q b ".toList ∧
      extract ["# q ".toList, "a".toList, "b".toList, "-- # q c".toList, "d".toList] ⟨"f".toList, .pattern wanted⟩ =
        .ok "a\nb".toList ∧
      extract ["x".toList] ⟨"f".toList, .pattern wanted⟩ = .error (.patternNotFound "f".toList wanted) := by
  intro wanted
  refine ⟨?_, ?_, ?_⟩
  · have hleads : LeadsTo wanted ["x".toList, "a # q\t # q b ".toList, "c".toList] ["x".toList] "a # q\t # q b ".toList ["c".toList]
        "\t # q b ".toList := ⟨rfl, by decide, Text.after?_eq_some_iff.1 rfl⟩
    exact ((quotesByPattern "f".toList wanted _).payload _ _ _ _ hleads (by decide)).1
  · have hleads : LeadsTo wanted ["# q ".toList, "a".toList, "b".toList, "-- # q c".toList, "d".toList] [] "# q ".toList
        ["a".toList, "b".toList, "-- # q c".toList, "d".toList] " ".toList := ⟨rfl, by decide, Text.after?_eq_some_iff.1 rfl⟩
    obtain ⟨quoted, rest, hfenced, hextract⟩ := (quotesByPattern "f".toList wanted _).fence _ _ _ _ hleads (by decide)
    obtain rfl : ["a".toList, "b".toList] = quoted := takeWhile_of_fenced hfenced
    exact hextract
  · exact (quotesByPattern "f".toList wanted ["x".toList]).missing.2 (by decide)

end Quotation.Excerpt
