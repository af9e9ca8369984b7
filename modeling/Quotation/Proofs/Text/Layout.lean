import Quotation.Config
import Quotation.Proofs.Text.Pieces

/-!
# What laying out adds

Laying a quote out adds line feeds, the spaces of a margin and the characters of entities. So a property of characters that these have and all of the quote has is one of all that is laid out (`forall_mem_laidOut`).
-/

namespace Quotation

variable {P : Char → Prop}

namespace Text

theorem forall_mem_outdent {t : Text} (hbreak : P '\n') (h : ∀ c ∈ t, P c) : ∀ c ∈ outdent t, P c := by
  refine forall_mem_join hbreak fun piece hpiece c hc => ?_
  obtain ⟨line, hline, rfl⟩ := List.mem_map.1 hpiece
  split at hc
  · simp at hc
  · exact h c (mem_of_mem_splitOn hline (List.mem_of_mem_drop hc))

theorem forall_mem_indent {width : Nat} {t : Text} (hbreak : P '\n') (hspace : P ' ') (h : ∀ c ∈ t, P c) :
    ∀ c ∈ indent width t, P c := by
  refine forall_mem_join hbreak fun piece hpiece c hc => ?_
  obtain ⟨line, hline, rfl⟩ := List.mem_map.1 hpiece
  have hkept : ∀ d ∈ line, P d := fun d hd => h d (mem_of_mem_splitOn hline hd)
  split at hc
  · exact hkept c hc
  · rcases List.mem_append.1 hc with hc | hc
    · exact List.eq_of_mem_replicate hc ▸ hspace
    · exact hkept c hc

theorem Xml.forall_mem_escape {t : Text} (hentity : ∀ c ∈ ampersand ++ lessThan ++ greaterThan, P c) (h : ∀ c ∈ t, P c) :
    ∀ c ∈ escape t, P c := by
  intro c hc
  rw [escape_eq_flatMap] at hc
  obtain ⟨d, hd, hc⟩ := List.mem_flatMap.1 hc
  rw [entity] at hc
  split at hc
  · exact hentity c (by simp [hc])
  · split at hc
    · exact hentity c (by simp [hc])
    · split at hc
      · exact hentity c (by simp [hc])
      · exact List.mem_singleton.1 hc ▸ h d hd

end Text

/-- The characters that laying out can add to a quote. -/
def Config.layoutCharacters : Text := '\n' :: ' ' :: (Text.Xml.ampersand ++ Text.Xml.lessThan ++ Text.Xml.greaterThan)

theorem Config.forall_mem_laidOut {config : Config} {quote : Text} (hlayout : ∀ c ∈ layoutCharacters, P c)
    (h : ∀ c ∈ quote, P c) : ∀ c ∈ config.laidOut quote, P c := by
  have hbreak : P '\n' := hlayout _ (by simp [layoutCharacters])
  have hspace : P ' ' := hlayout _ (by simp [layoutCharacters])
  have houtdented : ∀ c ∈ (if config.outdent then Text.outdent quote else quote), P c := by
    split
    · exact Text.forall_mem_outdent hbreak h
    · exact h
  rw [laidOut]
  generalize (if config.outdent then Text.outdent quote else quote) = outdented at houtdented ⊢
  have hindented : ∀ c ∈ (if 0 < config.indent then Text.indent config.indent.toNat outdented else outdented), P c := by
    split
    · exact Text.forall_mem_indent hbreak hspace houtdented
    · exact houtdented
  have hentity : ∀ c ∈ Text.Xml.ampersand ++ Text.Xml.lessThan ++ Text.Xml.greaterThan, P c := by
    intro c hc
    exact hlayout c (List.mem_cons_of_mem _ (List.mem_cons_of_mem _ hc))
  split
  · exact Text.Xml.forall_mem_escape hentity hindented
  · exact hindented

end Quotation
