import Mathlib.Data.List.Chain
import Quotation.Proofs.Segment.Span

/-!
# Segmentations

A line has one segmentation: segments that make up the line, none of them empty, no two texts side by side, and markers exactly at the spans. Any two such sequences agree from left to right (`eq_of_spans_eq`), and splitting makes one (`isSegmentation_iff`).
-/

namespace Quotation.Segment

def OneIsMarker (a b : Segment) : Prop := a.isMarker = true ∨ b.isMarker = true

/-- What the segments of a line have to be. -/
structure IsSegmentation (line : Text) (segments : List Segment) : Prop where
  joined : joinAll segments = line
  not_empty : line ≠ [] → ∀ segment ∈ segments, segment.toText ≠ []
  empty_line : line = [] → segments = [.text []]
  no_texts_adjacent : segments.IsChain OneIsMarker
  markers : ∀ i j, (i, j) ∈ spans 0 segments ↔ IsSpan false line i j

@[simp] theorem joinAll_nil : joinAll [] = [] := rfl

@[simp] theorem joinAll_cons (segment : Segment) (rest : List Segment) :
    joinAll (segment :: rest) = segment.toText ++ joinAll rest := List.flatMap_cons

/-! ### Splitting makes a segmentation -/

theorem toText_ne_nil_of_mem_consText {c : Char} {segments : List Segment}
    (h : ∀ segment ∈ segments, segment.toText ≠ []) : ∀ segment ∈ consText c segments, segment.toText ≠ [] := by
  fun_cases consText c segments with
  | case1 content rest =>
    rintro segment (_ | ⟨_, hmem⟩)
    · simp [toText]
    · exact h segment (List.mem_cons_of_mem _ hmem)
  | case2 =>
    rintro segment (_ | ⟨_, hmem⟩)
    · simp [toText]
    · exact h segment hmem

theorem isChain_consText {c : Char} {segments : List Segment} (h : segments.IsChain OneIsMarker) :
    (consText c segments).IsChain OneIsMarker := by
  fun_cases consText c segments with
  | case1 content rest =>
    cases rest with
    | nil => exact .singleton _
    | cons next rest =>
      obtain ⟨hnext, hrest⟩ := List.isChain_cons_cons.1 h
      exact List.isChain_cons_cons.2 ⟨by simpa [OneIsMarker, isMarker] using hnext, hrest⟩
  | case2 rest hmarker =>
    cases segments with
    | nil => exact .singleton _
    | cons next rest =>
      refine List.isChain_cons_cons.2 ⟨?_, h⟩
      cases next with
      | text content => exact absurd rfl (hmarker content rest)
      | marker body => exact Or.inr rfl

/-- Segments none of which is empty, without two texts side by side. -/
def Clean (segments : List Segment) : Prop :=
  (∀ segment ∈ segments, segment.toText ≠ []) ∧ segments.IsChain OneIsMarker

theorem clean_nil : Clean [] := ⟨by simp, .nil⟩

theorem Clean.consText {segments : List Segment} (h : Clean segments) (c : Char) : Clean (consText c segments) :=
  ⟨toText_ne_nil_of_mem_consText h.1, isChain_consText h.2⟩

theorem Clean.consMarker {segments : List Segment} (h : Clean segments) (body : Text) :
    Clean (.marker body :: segments) := by
  refine ⟨?_, ?_⟩
  · rintro segment (_ | ⟨_, hmem⟩)
    · simp [toText]
    · exact h.1 segment hmem
  · cases segments with
    | nil => exact .singleton _
    | cons next rest => exact List.isChain_cons_cons.2 ⟨Or.inl rfl, h.2⟩

theorem clean_scan (before : Bool) (line : Text) :
    Clean (scan before line).segments ∧ ∀ body after, (scan before line).closing = some (body, after) → Clean after := by
  induction line generalizing before with
  | nil => exact ⟨clean_nil, by simp [scan]⟩
  | cons c cs ih =>
    obtain ⟨houtside, hinside⟩ := ih (c = '\\')
    rw [scan]
    split
    · refine ⟨houtside.consText c, fun body after h => ?_⟩
      simp only [Option.some.injEq, Prod.mk.injEq] at h
      exact h.2 ▸ houtside
    · split
      · split
        · next body after hclosing =>
          refine ⟨?_, by simp⟩
          dsimp only
          split
          · exact houtside.consText c
          · exact (hinside body after hclosing).consMarker body
        · exact ⟨houtside.consText c, by simp⟩
      · refine ⟨houtside.consText c, fun body after h => ?_⟩
        obtain ⟨⟨inner, rest⟩, hinner, hpair⟩ := Option.map_eq_some_iff.1 h
        simp only [Prod.mk.injEq] at hpair
        exact hpair.2 ▸ hinside inner rest hinner

theorem isSegmentation_split (line : Text) : IsSegmentation line (split line) := by
  have hspans := mem_spans_scan false line
  have hclean := (clean_scan false line).1
  have hjoined := joinAll_split line
  rw [split] at hjoined ⊢
  split at hjoined
  · next hnil =>
    rw [hnil] at hspans
    exact ⟨hjoined, fun hline => absurd hjoined.symm hline, fun _ => rfl, .singleton _, hspans⟩
  · refine ⟨hjoined, fun _ => hclean.1, ?_, hclean.2, hspans⟩
    rintro rfl
    next hne => exact absurd rfl hne

theorem split_enclosed {body : Text} (hbody : body ≠ []) (hclose : ClosesAt false (body ++ [']']) body.length) :
    split ('[' :: body ++ [']']) = [.marker body] := by
  have hscan : (scan false ('[' :: body ++ [']'])).segments = [.marker body] := by
    simp [scan, closing_scan_of_closesAt hclose, hbody]
  rw [split, hscan]

/-! ### No other sequence is one -/

theorem le_of_mem_spans {start i j : Nat} {segments : List Segment} (h : (i, j) ∈ spans start segments) : start ≤ i := by
  obtain ⟨k, -, rfl, -⟩ := (mem_spans_iff ..).1 h
  omega

theorem length_eq_of_marker {start : Nat} {body : Text} {a b : List Segment} (hb : Clean b)
    (hspans : ∀ i j, (i, j) ∈ spans start (.marker body :: a) → (i, j) ∈ spans start b) :
    ∃ other rest, b = .marker other :: rest ∧ other.length = body.length := by
  have hmem := hspans start (start + body.length + 1) (by simp [spans])
  cases b with
  | nil => simp [spans] at hmem
  | cons y ys =>
    cases y with
    | text content =>
      rw [spans] at hmem
      have hle := le_of_mem_spans hmem
      have hcontent : 0 < content.length := List.length_pos_iff.2 (hb.1 (.text content) (by simp))
      omega
    | marker other =>
      refine ⟨other, ys, rfl, ?_⟩
      rcases List.mem_cons.1 hmem with hsame | hlater
      · simp only [Prod.mk.injEq] at hsame
        omega
      · have hle := le_of_mem_spans hlater
        omega

/-- A text that another sequence begins with reaches no further than the text here, since behind the text here a marker begins or the line ends. -/
theorem length_le_of_text {start : Nat} {first second : Text} {a b : List Segment}
    (hjoin : joinAll (.text first :: a) = joinAll (.text second :: b)) (ha : Clean (.text first :: a))
    (hspans : ∀ i j, (i, j) ∈ spans start (.text first :: a) → (i, j) ∈ spans start (.text second :: b)) :
    second.length ≤ first.length := by
  cases a with
  | nil =>
    have hlength := congrArg List.length hjoin
    simp only [joinAll_cons, joinAll_nil, toText, List.length_append, List.append_nil] at hlength
    omega
  | cons next rest =>
    cases next with
    | text content =>
      have hone := (List.isChain_cons_cons.1 ha.2).1
      simp [OneIsMarker, isMarker] at hone
    | marker body =>
      have hmem := hspans (start + first.length) (start + first.length + body.length + 1) (by simp [spans])
      rw [spans] at hmem
      have hle := le_of_mem_spans hmem
      omega

theorem Clean.tail {segment : Segment} {rest : List Segment} (h : Clean (segment :: rest)) : Clean rest :=
  ⟨fun next hmem => h.1 next (List.mem_cons_of_mem _ hmem), h.2.tail⟩

theorem mem_spans_marker_tail_iff {start i j : Nat} {body : Text} {rest : List Segment} :
    (i, j) ∈ spans (start + body.length + 2) rest ↔ (i, j) ∈ spans start (.marker body :: rest) ∧ start < i := by
  rw [spans, List.mem_cons, Prod.mk.injEq]
  constructor
  · intro h
    have hle := le_of_mem_spans h
    exact ⟨Or.inr h, by omega⟩
  · rintro ⟨⟨rfl, -⟩ | h, hlt⟩
    · omega
    · exact h

/-- Clean sequences that make up the same line and have the same spans are the same. -/
theorem eq_of_spans_eq (start : Nat) {a b : List Segment} (ha : Clean a) (hb : Clean b) (hjoin : joinAll a = joinAll b)
    (hspans : ∀ i j, (i, j) ∈ spans start a ↔ (i, j) ∈ spans start b) : a = b := by
  induction a generalizing start b with
  | nil =>
    cases b with
    | nil => rfl
    | cons y ys => exact absurd (List.append_eq_nil_iff.1 (hjoin.symm.trans joinAll_nil)).1 (hb.1 y (by simp))
  | cons x xs ih =>
    cases x with
    | marker body =>
      obtain ⟨other, ys, rfl, hlength⟩ := length_eq_of_marker hb fun i j => (hspans i j).1
      simp only [joinAll_cons, toText] at hjoin
      obtain ⟨hmarker, hrest⟩ := List.append_inj hjoin (by simp [hlength])
      obtain rfl : body = other := by simpa using hmarker
      have htails : ∀ i j, (i, j) ∈ spans (start + body.length + 2) xs ↔ (i, j) ∈ spans (start + body.length + 2) ys :=
        fun i j => by rw [mem_spans_marker_tail_iff, mem_spans_marker_tail_iff, hspans]
      rw [ih _ ha.tail hb.tail hrest htails]
    | text content =>
      cases b with
      | nil => exact absurd (List.append_eq_nil_iff.1 (hjoin.trans joinAll_nil)).1 (ha.1 (.text content) (by simp))
      | cons y ys =>
        cases y with
        | marker body =>
          obtain ⟨_, _, hcons, -⟩ := length_eq_of_marker ha fun i j => (hspans i j).2
          cases hcons
        | text other =>
          have hle := length_le_of_text hjoin ha fun i j => (hspans i j).1
          have hge := length_le_of_text hjoin.symm hb fun i j => (hspans i j).2
          have hlength : content.length = other.length := by omega
          simp only [joinAll_cons, toText] at hjoin
          obtain ⟨rfl, hrest⟩ := List.append_inj hjoin hlength
          rw [ih (start + content.length) ha.tail hb.tail hrest hspans]

theorem IsSegmentation.clean {line : Text} {segments : List Segment} (h : IsSegmentation line segments) (hline : line ≠ []) :
    Clean segments := ⟨h.not_empty hline, h.no_texts_adjacent⟩

/-- Splitting gives the segmentation of a line, and a line has no other. -/
theorem isSegmentation_iff (line : Text) (segments : List Segment) :
    IsSegmentation line segments ↔ segments = split line := by
  have hsplit := isSegmentation_split line
  constructor
  · intro h
    by_cases hline : line = []
    · rw [h.empty_line hline, hsplit.empty_line hline]
    · exact eq_of_spans_eq 0 (h.clean hline) (hsplit.clean hline) (h.joined.trans hsplit.joined.symm)
        fun i j => (h.markers i j).trans (hsplit.markers i j).symm
  · rintro rfl
    exact hsplit

end Quotation.Segment
