import Quotation.Excerpt
import Quotation.Proofs.Text.Pieces

/-!
# What excerpts are made of

An excerpt has the characters of the cited lines and line feeds between them (`mem_of_extract`). Taking it fails for what the citation asks for and never for how it is written or how deep it is nested (`concernsTarget_of_extract`).
-/

namespace Quotation

/-! ### Errors -/

namespace CitationError

def IsMalformed : CitationError → Prop
  | .malformed .. => True
  | _ => False

def IsTooDeep : CitationError → Prop
  | .tooDeep .. => True
  | _ => False

/-- Whether the error is about the cited file or the passage of it that is asked for. -/
def ConcernsTarget : CitationError → Prop
  | .lineOutOfRange .. | .invalidRange .. | .patternNotFound .. | .unreadable .. => True
  | _ => False

theorem ConcernsTarget.not_isMalformed {e : CitationError} (h : e.ConcernsTarget) : ¬ e.IsMalformed := by
  cases e with
  | malformed => exact h.elim
  | _ => exact id

theorem ConcernsTarget.not_isTooDeep {e : CitationError} (h : e.ConcernsTarget) : ¬ e.IsTooDeep := by
  cases e with
  | tooDeep => exact h.elim
  | _ => exact id

end CitationError

namespace Excerpt

theorem concernsTarget_of_lineAt {target : Text} {lines : List Text} {number : Int} {e : CitationError}
    (h : lineAt target lines number = .error e) : e.ConcernsTarget := by
  rw [lineAt] at h
  split at h
  · exact Except.error.inj h ▸ trivial
  · split at h
    · cases h
    · exact Except.error.inj h ▸ trivial

theorem concernsTarget_of_ofPattern {target wanted : Text} {lines : List Text} {e : CitationError}
    (h : ofPattern target wanted lines = .error e) : e.ConcernsTarget := by
  induction lines with
  | nil => exact Except.error.inj h ▸ trivial
  | cons line rest ih =>
    rw [ofPattern] at h
    split at h
    · exact ih h
    · split at h <;> cases h

theorem concernsTarget_of_ofRange {target : Text} {lines : List Text} {first last : Int} {e : CitationError}
    (h : ofRange target lines first last = .error e) : e.ConcernsTarget := by
  rw [ofRange] at h
  split at h
  · exact Except.error.inj h ▸ trivial
  · cases hfirst : lineAt target lines first with
    | error failure =>
      rw [hfirst] at h
      exact Except.error.inj h ▸ concernsTarget_of_lineAt hfirst
    | ok _ =>
      cases hlast : lineAt target lines last with
      | error failure =>
        rw [hfirst, hlast] at h
        exact Except.error.inj h ▸ concernsTarget_of_lineAt hlast
      | ok _ =>
        rw [hfirst, hlast] at h
        cases h

theorem concernsTarget_of_extract {lines : List Text} {c : Citation} {e : CitationError}
    (h : extract lines c = .error e) : e.ConcernsTarget := by
  rw [extract] at h
  split at h
  · cases h
  · exact concernsTarget_of_lineAt h
  · exact concernsTarget_of_ofRange h
  · exact concernsTarget_of_ofPattern h

/-! ### The name of the cited file -/

theorem kind_of_lineAt (target other : Text) (lines : List Text) (number : Int) :
    (lineAt other lines number).mapError CitationError.kind = (lineAt target lines number).mapError CitationError.kind := by
  rw [lineAt, lineAt]
  split
  · rfl
  · split <;> rfl

theorem kind_of_ofRange (target other : Text) (lines : List Text) (first last : Int) :
    (ofRange other lines first last).mapError CitationError.kind = (ofRange target lines first last).mapError CitationError.kind := by
  have hbind : ∀ (x : Except CitationError Text) (next : Text → Except CitationError Text),
      (x >>= next).mapError CitationError.kind =
        x.mapError CitationError.kind >>= fun line => (next line).mapError CitationError.kind := by
    intro x next
    cases x <;> rfl
  rw [ofRange, ofRange]
  split
  · rfl
  · simp only [hbind, kind_of_lineAt target other]

theorem kind_of_ofPattern (target other wanted : Text) (lines : List Text) :
    (ofPattern other wanted lines).mapError CitationError.kind = (ofPattern target wanted lines).mapError CitationError.kind := by
  induction lines with
  | nil => rfl
  | cons line rest ih =>
    rw [ofPattern, ofPattern]
    split
    · exact ih
    · split <;> rfl

/-- How the cited file is named plays no part in what is quoted from its lines, nor in the kind of error. -/
theorem kind_of_extract {c c' : Citation} (h : c'.passage = c.passage) (lines : List Text) :
    (extract lines c').mapError CitationError.kind = (extract lines c).mapError CitationError.kind := by
  rw [extract, extract, h]
  split
  · rfl
  · exact kind_of_lineAt ..
  · exact kind_of_ofRange ..
  · exact kind_of_ofPattern ..

/-! ### Characters -/

theorem mem_of_after? {wanted line payload : Text} (h : Text.after? wanted line = some payload) :
    ∀ c ∈ payload, c ∈ line := by
  fun_induction Text.after? wanted line with
  | case1 => simp_all
  | case2 => cases h
  | case3 d ds _ =>
    obtain rfl := Option.some.inj h
    exact fun c hc => List.mem_of_mem_drop hc
  | case4 d ds _ ih => exact fun c hc => List.mem_cons_of_mem _ (ih h c hc)

theorem mem_of_lineAt {target quote : Text} {lines : List Text} {number : Int}
    (h : lineAt target lines number = .ok quote) : quote ∈ lines := by
  rw [lineAt] at h
  split at h
  · cases h
  · split at h
    · next line hline =>
      obtain rfl := Except.ok.inj h
      exact List.mem_of_getElem? hline
    · cases h

theorem mem_of_ofRange {target quote : Text} {lines : List Text} {first last : Int}
    (h : ofRange target lines first last = .ok quote) : ∀ c ∈ quote, c = '\n' ∨ ∃ line ∈ lines, c ∈ line := by
  rw [ofRange] at h
  split at h
  · cases h
  · cases hfirst : lineAt target lines first with
    | error e => simp [hfirst, bind, Except.bind] at h
    | ok _ =>
      cases hlast : lineAt target lines last with
      | error e => simp [hfirst, hlast, bind, Except.bind] at h
      | ok _ =>
        rw [hfirst, hlast] at h
        obtain rfl : Text.join '\n' ((lines.take last.toNat).drop (first.toNat - 1)) = quote := Except.ok.inj h
        intro c hc
        obtain hc | ⟨line, hline, hc⟩ := Text.mem_of_mem_join hc
        · exact Or.inl hc
        · exact Or.inr ⟨line, List.mem_of_mem_take (List.mem_of_mem_drop hline), hc⟩

theorem mem_of_ofPattern {target wanted quote : Text} {lines : List Text}
    (h : ofPattern target wanted lines = .ok quote) : ∀ c ∈ quote, c = '\n' ∨ ∃ line ∈ lines, c ∈ line := by
  induction lines with
  | nil => cases h
  | cons line rest ih =>
    intro c hc
    rw [ofPattern] at h
    split at h
    · obtain hc | ⟨other, hother, hc⟩ := ih h c hc
      · exact Or.inl hc
      · exact Or.inr ⟨other, List.mem_cons_of_mem _ hother, hc⟩
    · next payload hpayload =>
      split at h
      · obtain rfl := Except.ok.inj h
        obtain hc | ⟨other, hother, hc⟩ := Text.mem_of_mem_join hc
        · exact Or.inl hc
        · exact Or.inr ⟨other, List.mem_cons_of_mem _ (List.takeWhile_prefix _ |>.subset hother), hc⟩
      · obtain rfl := Except.ok.inj h
        have hpart : c ∈ payload := (List.dropWhile_sublist Text.isBlank).subset hc
        exact Or.inr ⟨line, by simp, mem_of_after? hpayload c hpart⟩

theorem mem_of_extract {lines : List Text} {c : Citation} {quote : Text} (h : extract lines c = .ok quote) :
    ∀ d ∈ quote, d = '\n' ∨ ∃ line ∈ lines, d ∈ line := by
  rw [extract] at h
  split at h
  · obtain rfl := Except.ok.inj h
    exact fun d hd => Text.mem_of_mem_join hd
  · exact fun d hd => Or.inr ⟨quote, mem_of_lineAt h, hd⟩
  · exact mem_of_ofRange h
  · exact mem_of_ofPattern h

end Excerpt

end Quotation
