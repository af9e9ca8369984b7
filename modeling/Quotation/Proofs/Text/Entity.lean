import Mathlib.Data.List.Infix
import Quotation.Proofs.Text.Escape
import Quotation.Proofs.Text.Layout
import Quotation.Proofs.Text.Margin

/-!
# Entities

What is put in for a reserved character starts with an ampersand and has no other one, and no angle brackets. So escaped text can be read back from left to right (`unescape_escape`), and each ampersand in it starts an entity (`ampersandsStart_escape`). Reserved characters are neither blanks nor padding and end no line, and their entities start with one of them. Escaping therefore leaves margins and blank lines as they are, and it makes no difference whether a quote is escaped before it is laid out or after (`laidOut_escape`).
-/

namespace Quotation

namespace Text.Xml

/-- Every ampersand of the text is the first character of an entity. -/
def AmpersandsStart (t : Text) : Prop := ∀ rest, '&' :: rest <:+ t → ∃ c ∈ reserved, entity c <+: '&' :: rest

/-! ### Reading back -/

theorem unescape_cons {c : Char} (h : c ≠ '&') (t : Text) : unescape (c :: t) = c :: unescape t := by
  rw [unescape]
  all_goals
    intro rest heq
    exact absurd heq h

theorem unescape_entity_append (c : Char) (t : Text) : unescape (entity c ++ t) = c :: unescape t := by
  by_cases hc : c ∈ reserved
  · obtain rfl | rfl | rfl := mem_reserved_iff.1 hc
    all_goals rfl
  · have hne : c ≠ '&' := fun h => hc (h ▸ List.mem_cons_self)
    rw [entity_of_not_mem hc, List.singleton_append, unescape_cons hne]

theorem unescape_escape (t : Text) : unescape (escape t) = t := by
  induction t with
  | nil => rfl
  | cons c cs ih => rw [escape_cons, unescape_entity_append, ih]

theorem ampersandsStart_escape (t : Text) : AmpersandsStart (escape t) := by
  induction t with
  | nil => exact fun rest h => absurd (List.suffix_nil.1 h) (by simp)
  | cons c cs ih =>
    intro rest h
    rw [escape_cons] at h
    by_cases hc : c ∈ reserved
    · have hwhole : '&' :: rest = entity c ++ escape cs ∨ '&' :: rest <:+ escape cs := by
        obtain rfl | rfl | rfl := mem_reserved_iff.1 hc
        all_goals simpa [entity, ampersand, lessThan, greaterThan, List.suffix_cons_iff] using h
      obtain hwhole | hrest := hwhole
      · exact ⟨c, hc, hwhole ▸ List.prefix_append (entity c) (escape cs)⟩
      · exact ih rest hrest
    · rw [entity_of_not_mem hc, List.singleton_append, List.suffix_cons_iff] at h
      obtain hhead | hrest := h
      · exact absurd ((List.cons.inj hhead).1 ▸ List.mem_cons_self) hc
      · exact ih rest hrest

theorem not_mem_escape {c : Char} (hreserved : c ∈ reserved) (h : c ≠ '&') (t : Text) : c ∉ escape t := by
  induction t with
  | nil => simp [escape_eq_flatMap]
  | cons d ds ih =>
    rw [escape_cons, List.mem_append, not_or]
    refine ⟨fun hmem => ?_, ih⟩
    by_cases hd : d ∈ reserved
    · obtain rfl | rfl | rfl := mem_reserved_iff.1 hd
      all_goals
        obtain rfl | rfl := (mem_reserved_iff.1 hreserved).resolve_left h
        all_goals exact absurd hmem (by decide)
    · rw [entity_of_not_mem hd, List.mem_singleton] at hmem
      exact hd (hmem ▸ hreserved)

/-! ### Margins and blanks -/

section

variable {P : Char → Bool}

theorem all_entity (h : ∀ c ∈ reserved, P c = false) (c : Char) : (entity c).all P = P c := by
  by_cases hc : c ∈ reserved
  · obtain ⟨d, hd, hreserved⟩ := exists_mem_entity hc
    rw [h c hc, List.all_eq_false]
    exact ⟨d, hd, by simp [h d hreserved]⟩
  · rw [entity_of_not_mem hc, List.all_cons, List.all_nil, Bool.and_true]

theorem all_escape (h : ∀ c ∈ reserved, P c = false) (t : Text) : (escape t).all P = t.all P := by
  induction t with
  | nil => rfl
  | cons c cs ih => rw [escape_cons, List.all_append, all_entity h, ih, List.all_cons]

theorem takeWhile_escape (h : ∀ c ∈ reserved, P c = false) (t : Text) : (escape t).takeWhile P = t.takeWhile P := by
  induction t with
  | nil => rfl
  | cons c cs ih =>
    rw [escape_cons]
    by_cases hc : c ∈ reserved
    · obtain ⟨rest, hentity⟩ : ∃ rest, entity c = '&' :: rest := by
        obtain rfl | rfl | rfl := mem_reserved_iff.1 hc
        all_goals exact ⟨_, rfl⟩
      rw [hentity, List.cons_append, List.takeWhile_cons_of_neg, List.takeWhile_cons_of_neg]
      · simp [h c hc]
      · simp [h '&' List.mem_cons_self]
    · rw [entity_of_not_mem hc, List.singleton_append, List.takeWhile_cons, List.takeWhile_cons, ih]

end

theorem isPadding_of_mem_reserved : ∀ c ∈ reserved, isPadding c = false := by
  intro c hc
  obtain rfl | rfl | rfl := mem_reserved_iff.1 hc
  all_goals rfl

theorem isBlank_of_mem_reserved : ∀ c ∈ reserved, isBlank c = false := by
  intro c hc
  obtain rfl | rfl | rfl := mem_reserved_iff.1 hc
  all_goals decide

theorem onlyPadding_escape (t : Text) : onlyPadding (escape t) = onlyPadding t := all_escape isPadding_of_mem_reserved t

theorem allBlank_escape (t : Text) : allBlank (escape t) = allBlank t := all_escape isBlank_of_mem_reserved t

theorem margin_map_escape (lines : List Text) : margin (lines.map escape) = margin lines := by
  have hstarts : ((lines.map escape).filter fun line => !onlyPadding line).map (·.takeWhile isPadding) =
      (lines.filter fun line => !onlyPadding line).map (·.takeWhile isPadding) := by
    rw [List.filter_map, List.map_map]
    have hshown : ((fun line => !onlyPadding line) ∘ escape) = fun line => !onlyPadding line := by
      funext line
      rw [Function.comp_apply, onlyPadding_escape]
    rw [hshown]
    exact List.map_congr_left fun line _ => takeWhile_escape isPadding_of_mem_reserved line
  rw [margin, margin, hstarts]

/-! ### Line by line -/

theorem escape_join (pieces : List Text) : escape (join '\n' pieces) = join '\n' (pieces.map escape) := by
  fun_induction join '\n' pieces with
  | case1 => rfl
  | case2 piece => rfl
  | case3 piece next rest ih =>
    have hbreak : entity '\n' = ['\n'] := rfl
    rw [escape_append, escape_cons, hbreak, ih]
    rfl

theorem splitOn_escape (t : Text) : splitOn '\n' (escape t) = (splitOn '\n' t).map escape := by
  have hpiece : ∀ piece, '\n' ∉ piece → '\n' ∉ escape piece := by
    intro piece hpiece hmem
    have hentities : (ampersand ++ lessThan ++ greaterThan).all (· ≠ '\n') = true := by decide
    refine forall_mem_escape (P := (· ≠ '\n')) (fun c hc => ?_) (fun c hc => ?_) '\n' hmem rfl
    · simpa using List.all_eq_true.1 hentities c hc
    · rintro rfl
      exact hpiece hc
  rw [← splitOn_join_map hpiece, ← escape_join, join_splitOn]

theorem outdented_escape {lines : List Text} {line : Text} (hline : line ∈ lines) :
    outdented (margin lines).length (escape line) = escape (outdented (margin lines).length line) := by
  have hmargin := isMargin_margin lines
  cases hshown : onlyPadding line with
  | true =>
    rw [outdented_of_onlyPadding hshown, outdented_of_onlyPadding ((onlyPadding_escape line).trans hshown)]
    rfl
  | false =>
    obtain ⟨rest, hwhole, -, houtdented⟩ := hmargin.exists_rest hline hshown
    have hplain : escape (margin lines) = margin lines := escape_of_not_mem fun c hc hreserved => by
      have hpadding := List.all_eq_true.1 hmargin.padding c hc
      simp [isPadding_of_mem_reserved c hreserved] at hpadding
    rw [houtdented, outdented, onlyPadding_escape, hshown, if_neg (by simp), hwhole, escape_append, hplain, List.drop_left]

theorem outdent_escape (t : Text) : outdent (escape t) = escape (outdent t) := by
  rw [outdent_eq, outdent_eq, splitOn_escape, margin_map_escape, escape_join, List.map_map, List.map_map]
  exact congrArg (join '\n') (List.map_congr_left fun line hline => outdented_escape hline)

theorem indented_escape (width : Nat) (line : Text) : indented width (escape line) = escape (indented width line) := by
  have hplain : escape (List.replicate width ' ') = List.replicate width ' ' := escape_of_not_mem fun c hc => by
    rw [List.eq_of_mem_replicate hc]
    decide
  rw [indented, indented, allBlank_escape]
  split
  · rfl
  · rw [escape_append, hplain]

theorem indent_escape (width : Nat) (t : Text) : indent width (escape t) = escape (indent width t) := by
  rw [indent_eq, indent_eq, splitOn_escape, escape_join, List.map_map, List.map_map]
  exact congrArg (join '\n') (List.map_congr_left fun line _ => indented_escape width line)

end Text.Xml

open Text.Xml

theorem laidOut_escape (config : Config) (quote : Text) :
    Config.laidOut { config with escapeXml := true } quote = Config.laidOut { config with escapeXml := false } (escape quote) := by
  have houtdented : (if config.outdent then Text.outdent (escape quote) else escape quote) =
      escape (if config.outdent then Text.outdent quote else quote) := by
    split
    · exact outdent_escape quote
    · rfl
  simp only [Config.laidOut, houtdented, if_true, Bool.false_eq_true, if_false]
  split
  · exact (indent_escape _ _).symm
  · rfl

/-- Escaping replaces each character by itself, so that its three steps do not get into each other's way. It leaves no angle brackets and no ampersand outside an entity, can be undone and be done part by part, and may come before the layout as well as after. -/
theorem escaping_is_lossless (t : Text) :
    escape t = t.flatMap entity ∧ '<' ∉ escape t ∧ '>' ∉ escape t ∧ AmpersandsStart (escape t) ∧ unescape (escape t) = t ∧
    (∀ more, escape (t ++ more) = escape t ++ escape more) ∧
    ∀ config : Config, Config.layOut { config with escapeXml := true } t =
      Config.layOut { config with escapeXml := false } (escape t) := by
  refine ⟨escape_eq_flatMap t, ?_, ?_, ampersandsStart_escape t, unescape_escape t, escape_append t, fun config => ?_⟩
  · exact not_mem_escape (by decide) (by decide) t
  · exact not_mem_escape (by decide) (by decide) t
  · have hmargin : Config.checkMargin { config with escapeXml := true } = Config.checkMargin { config with escapeXml := false } := rfl
    rw [Config.layOut, Config.layOut, hmargin, laidOut_escape]

example : escape "&lt;<".toList = "&amp;lt;&lt;".toList := by decide

end Quotation
