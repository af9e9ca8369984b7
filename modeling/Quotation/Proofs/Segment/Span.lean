import Mathlib.Data.List.Basic
import Quotation.Segment

/-!
# Where the markers of a line stand

A marker is known by its span, the positions of its two brackets, and whether two positions are a span can be said without reading the line from either end: `IsSpan`. Splitting finds these spans and no others (`mem_spans_scan`), so it cannot be led past a marker by a bracket that opens nothing.

What stands before a text matters only through its last character, which may be a backslash. Every statement therefore carries a flag for it, and moving along the line is the same as moving the positions (`isSpan_append`).
-/

namespace Quotation.Segment

/-- Whether a backslash stands right before a position; `before` says whether one stands before the text. -/
def Escaped (before : Bool) (t : Text) : Nat → Prop
  | 0 => before = true
  | position + 1 => t[position]? = some '\\'

/-- A closing bracket comes at `j`, and before it neither another one nor an opening bracket that could open a marker. -/
def ClosesAt (before : Bool) (t : Text) (j : Nat) : Prop :=
  t[j]? = some ']' ∧ ∀ k < j, t[k]? ≠ some ']' ∧ (t[k]? = some '[' → Escaped before t k)

/-- An opening bracket that is not escaped stands at `i` and a closing one at `j`, with something between the two, but no closing bracket and no opening one that is not escaped. -/
structure IsSpan (before : Bool) (t : Text) (i j : Nat) : Prop where
  opening : t[i]? = some '['
  not_escaped : ¬ Escaped before t i
  closing : t[j]? = some ']'
  inhabited : i + 1 < j
  no_closing : ∀ k, i < k → k < j → t[k]? ≠ some ']'
  no_opening : ∀ k, i < k → k < j → t[k]? = some '[' → Escaped before t k

/-- The spans of the marker segments, for a sequence of segments that begins at position `start`. -/
def spans (start : Nat) : List Segment → List (Nat × Nat)
  | [] => []
  | .text content :: rest => spans (start + content.length) rest
  | .marker body :: rest => (start, start + body.length + 1) :: spans (start + body.length + 2) rest

/-! ### Moving along the line -/

theorem escaped_cons (before : Bool) (c : Char) (cs : Text) (k : Nat) :
    Escaped before (c :: cs) (k + 1) ↔ Escaped (c = '\\') cs k := by
  cases k <;> simp [Escaped]

theorem closesAt_nil (before : Bool) (j : Nat) : ¬ ClosesAt before [] j := by
  simp [ClosesAt]

theorem closesAt_cons_zero (before : Bool) (c : Char) (cs : Text) : ClosesAt before (c :: cs) 0 ↔ c = ']' := by
  simp [ClosesAt]

theorem closesAt_cons_succ (before : Bool) (c : Char) (cs : Text) (j : Nat) :
    ClosesAt before (c :: cs) (j + 1) ↔ c ≠ ']' ∧ (c = '[' → before = true) ∧ ClosesAt (c = '\\') cs j := by
  constructor
  · intro h
    obtain ⟨hc, ho⟩ := h.2 0 (by omega)
    refine ⟨by simpa using hc, by simpa [Escaped] using ho, by simpa using h.1, fun k hk => ?_⟩
    simpa [escaped_cons] using h.2 (k + 1) (by omega)
  · rintro ⟨hc, ho, hclose, hinside⟩
    refine ⟨by simpa using hclose, fun k hk => ?_⟩
    cases k with
    | zero => simpa [Escaped, hc] using ho
    | succ k => simpa [escaped_cons] using hinside k (by omega)

theorem ClosesAt.unique {before : Bool} {line : Text} {i j : Nat} (hi : ClosesAt before line i)
    (hj : ClosesAt before line j) : i = j := by
  rcases Nat.lt_trichotomy i j with h | h | h
  · exact absurd hi.1 (hj.2 i h).1
  · exact h
  · exact absurd hj.1 (hi.2 j h).1

theorem closesAt_of_not_mem {before : Bool} {body : Text} (hopen : '[' ∉ body) (hclose : ']' ∉ body) (rest : Text) :
    ClosesAt before (body ++ ']' :: rest) body.length := by
  induction body generalizing before with
  | nil => exact (closesAt_cons_zero ..).2 rfl
  | cons c cs ih =>
    simp only [List.mem_cons, not_or] at hopen hclose
    exact (closesAt_cons_succ ..).2 ⟨Ne.symm hclose.1, fun ho => absurd ho.symm hopen.1, ih hopen.2 hclose.2⟩

theorem isSpan_nil (before : Bool) (i j : Nat) : ¬ IsSpan before [] i j := by
  intro h
  simpa using h.opening

theorem isSpan_cons_zero (before : Bool) (c : Char) (cs : Text) (j : Nat) :
    IsSpan before (c :: cs) 0 j ↔ c = '[' ∧ before = false ∧ ∃ k, 0 < k ∧ j = k + 1 ∧ ClosesAt (c = '\\') cs k := by
  constructor
  · intro h
    obtain ⟨k, rfl⟩ : ∃ k, j = k + 1 := ⟨j - 1, by have := h.inhabited; omega⟩
    refine ⟨by simpa using h.opening, by simpa [Escaped] using h.not_escaped, k, by have := h.inhabited; omega, rfl,
      by simpa using h.closing, fun l hl => ⟨?_, ?_⟩⟩
    · simpa using h.no_closing (l + 1) (by omega) (by omega)
    · simpa [escaped_cons] using h.no_opening (l + 1) (by omega) (by omega)
  · rintro ⟨rfl, rfl, k, hk, rfl, hclose, hinside⟩
    refine ⟨rfl, by simp [Escaped], by simpa using hclose, by omega, fun l hl hlk => ?_, fun l hl hlk => ?_⟩
    all_goals obtain ⟨m, rfl⟩ : ∃ m, l = m + 1 := ⟨l - 1, by omega⟩
    · simpa using (hinside m (by omega)).1
    · simpa [escaped_cons] using (hinside m (by omega)).2

theorem isSpan_cons_succ (before : Bool) (c : Char) (cs : Text) (i j : Nat) :
    IsSpan before (c :: cs) (i + 1) (j + 1) ↔ IsSpan (c = '\\') cs i j := by
  constructor
  · intro h
    refine ⟨by simpa using h.opening, by simpa [escaped_cons] using h.not_escaped, by simpa using h.closing,
      by have := h.inhabited; omega, fun k hi hj => ?_, fun k hi hj => ?_⟩
    · simpa using h.no_closing (k + 1) (by omega) (by omega)
    · simpa [escaped_cons] using h.no_opening (k + 1) (by omega) (by omega)
  · intro h
    refine ⟨by simpa using h.opening, by simpa [escaped_cons] using h.not_escaped, by simpa using h.closing,
      by have := h.inhabited; omega, fun k hi hj => ?_, fun k hi hj => ?_⟩
    all_goals obtain ⟨m, rfl⟩ : ∃ m, k = m + 1 := ⟨k - 1, by omega⟩
    · simpa using h.no_closing m (by omega) (by omega)
    · simpa [escaped_cons] using h.no_opening m (by omega) (by omega)

theorem isSpan_append (before : Bool) (head : Text) (c : Char) (line : Text) (i j : Nat) :
    IsSpan before (head ++ c :: line) (head.length + 1 + i) (head.length + 1 + j) ↔ IsSpan (c = '\\') line i j := by
  induction head generalizing before with
  | nil =>
    rw [List.nil_append, List.length_nil, show 0 + 1 + i = i + 1 by omega, show 0 + 1 + j = j + 1 by omega]
    exact isSpan_cons_succ before c line i j
  | cons d ds ih =>
    rw [List.cons_append, List.length_cons, show ds.length + 1 + 1 + i = ds.length + 1 + i + 1 by omega,
      show ds.length + 1 + 1 + j = ds.length + 1 + j + 1 by omega, isSpan_cons_succ]
    exact ih _

/-- Between the brackets of a marker no other marker begins. -/
theorem IsSpan.le_of_closesAt {before : Bool} {line : Text} {i j k : Nat} (h : IsSpan before line i j)
    (hclose : ClosesAt before line k) : k + 1 ≤ i := by
  by_contra hlt
  rcases Nat.lt_or_ge i k with hik | hik
  · exact h.not_escaped ((hclose.2 i hik).2 h.opening)
  · have hk : i = k := by omega
    have hbracket := h.opening
    rw [hk, hclose.1] at hbracket
    exact absurd hbracket (by decide)

/-! ### Spans of a sequence of segments -/

theorem spans_add (n start : Nat) (segments : List Segment) :
    spans (n + start) segments = (spans start segments).map fun span => (n + span.1, n + span.2) := by
  induction segments generalizing start with
  | nil => rfl
  | cons segment rest ih =>
    cases segment with
    | text content => rw [spans, spans, Nat.add_assoc, ih]
    | marker body =>
      rw [spans, spans, List.map_cons, show n + start + body.length + 2 = n + (start + body.length + 2) by omega, ih]
      simp only [List.cons.injEq, Prod.mk.injEq, and_true, true_and]
      omega

theorem mem_spans_iff (start i j : Nat) (segments : List Segment) :
    (i, j) ∈ spans start segments ↔ ∃ k l, i = start + k ∧ j = start + l ∧ (k, l) ∈ spans 0 segments := by
  rw [← Nat.add_zero start, spans_add]
  simp only [List.mem_map, Prod.exists, Prod.mk.injEq, Nat.add_zero]
  constructor
  · rintro ⟨k, l, hmem, rfl, rfl⟩
    exact ⟨k, l, rfl, rfl, hmem⟩
  · rintro ⟨k, l, rfl, rfl, hmem⟩
    exact ⟨k, l, hmem, rfl, rfl⟩

theorem spans_consText (start : Nat) (c : Char) (segments : List Segment) :
    spans start (consText c segments) = spans (start + 1) segments := by
  fun_cases consText c segments with
  | case1 content rest =>
    rw [spans, spans, List.length_cons, show start + (content.length + 1) = start + 1 + content.length by omega]
  | case2 => rfl

/-! ### What scanning finds -/

theorem closing_scan_eq_some {before : Bool} {line body : Text} {after : List Segment}
    (h : (scan before line).closing = some (body, after)) :
    ∃ rest, line = body ++ ']' :: rest ∧ ClosesAt before line body.length ∧ after = (scan false rest).segments := by
  induction line generalizing before body with
  | nil => simp [scan] at h
  | cons c cs ih =>
    rw [scan] at h
    split at h
    · next hc =>
      simp only [Option.some.injEq, Prod.mk.injEq] at h
      obtain ⟨rfl, rfl⟩ := h
      exact ⟨cs, by simp [hc], (closesAt_cons_zero ..).2 hc, by simp [hc]⟩
    · next hc =>
      split at h
      · split at h <;> simp at h
      · next hopen =>
        obtain ⟨⟨inner, rest⟩, hinner, hpair⟩ := Option.map_eq_some_iff.1 h
        simp only [Prod.mk.injEq] at hpair
        obtain ⟨rfl, rfl⟩ := hpair
        obtain ⟨tail, rfl, hclose, rfl⟩ := ih hinner
        refine ⟨tail, rfl, (closesAt_cons_succ ..).2 ⟨hc, fun ho => ?_, hclose⟩, rfl⟩
        simpa [ho] using hopen

theorem closing_scan_of_closesAt {before : Bool} {body rest : Text} (h : ClosesAt before (body ++ ']' :: rest) body.length) :
    (scan before (body ++ ']' :: rest)).closing = some (body, (scan false rest).segments) := by
  induction body generalizing before with
  | nil => simp [scan]
  | cons c cs ih =>
    obtain ⟨hc, hescaped, hrest⟩ := (closesAt_cons_succ ..).1 h
    have hopen : ¬ (c = '[' ∧ before = false) := fun hboth => by simp [hescaped hboth.1] at hboth
    rw [List.cons_append, scan, if_neg hc, if_neg hopen, ih hrest]
    rfl

theorem not_closesAt_of_closing_scan {before : Bool} {line : Text} (h : (scan before line).closing = none) (j : Nat) :
    ¬ ClosesAt before line j := by
  induction line generalizing before j with
  | nil => exact closesAt_nil before j
  | cons c cs ih =>
    intro hclose
    rw [scan] at h
    split at h
    · cases h
    · next hc =>
      cases j with
      | zero => exact hc ((closesAt_cons_zero ..).1 hclose)
      | succ j =>
        obtain ⟨-, hescaped, hrest⟩ := (closesAt_cons_succ ..).1 hclose
        split at h
        · next hopen => simp [hescaped hopen.1] at hopen
        · exact ih (Option.map_eq_none_iff.1 h) j hrest

theorem mem_spans_consText_iff {before : Bool} {c : Char} {cs : Text} {segments : List Segment}
    (hsegments : ∀ i j, (i, j) ∈ spans 0 segments ↔ IsSpan (c = '\\') cs i j) (hfirst : ∀ j, ¬ IsSpan before (c :: cs) 0 j)
    (i j : Nat) : (i, j) ∈ spans 0 (consText c segments) ↔ IsSpan before (c :: cs) i j := by
  rw [spans_consText, mem_spans_iff]
  constructor
  · rintro ⟨k, l, rfl, rfl, hmem⟩
    rw [show 0 + 1 + k = k + 1 by omega, show 0 + 1 + l = l + 1 by omega, isSpan_cons_succ]
    exact (hsegments k l).1 hmem
  · intro h
    cases i with
    | zero => exact absurd h (hfirst j)
    | succ k =>
      obtain ⟨l, rfl⟩ : ∃ l, j = l + 1 := ⟨j - 1, by have := h.inhabited; omega⟩
      exact ⟨k, l, by omega, by omega, (hsegments k l).2 ((isSpan_cons_succ ..).1 h)⟩

/-- Where a marker begins at the first character, the spans are its own and those of the text behind it. -/
theorem mem_spans_marker_iff {body rest : Text} {after : List Segment} (hbody : body ≠ [])
    (hclose : ClosesAt false (body ++ ']' :: rest) body.length)
    (hafter : ∀ i j, (i, j) ∈ spans 0 after ↔ IsSpan false rest i j) (i j : Nat) :
    (i, j) ∈ spans 0 (.marker body :: after) ↔ IsSpan false ('[' :: (body ++ ']' :: rest)) i j := by
  have hlength : 0 < body.length := List.length_pos_iff.2 hbody
  have hbehind : ∀ k l, IsSpan false ('[' :: (body ++ ']' :: rest)) (body.length + 2 + k) (body.length + 2 + l) ↔
      IsSpan false rest k l := fun k l => by
    simpa [Nat.add_assoc, Nat.add_comm, Nat.add_left_comm] using isSpan_append false ('[' :: body) ']' rest k l
  rw [spans, List.mem_cons, Prod.mk.injEq, mem_spans_iff, show 0 + body.length + 2 = body.length + 2 by omega]
  constructor
  · rintro (⟨rfl, rfl⟩ | ⟨k, l, rfl, rfl, hmem⟩)
    · exact (isSpan_cons_zero ..).2 ⟨rfl, rfl, body.length, hlength, by omega, hclose⟩
    · exact (hbehind k l).2 ((hafter k l).1 hmem)
  · intro h
    cases i with
    | zero =>
      obtain ⟨-, -, k, -, rfl, hk⟩ := (isSpan_cons_zero ..).1 h
      have hsame : k = body.length := hk.unique hclose
      exact Or.inl ⟨rfl, by omega⟩
    | succ i =>
      obtain ⟨j, rfl⟩ : ∃ l, j = l + 1 := ⟨j - 1, by have := h.inhabited; omega⟩
      have hinner := (isSpan_cons_succ ..).1 h
      have hle : body.length + 1 ≤ i := hinner.le_of_closesAt hclose
      have hlt := hinner.inhabited
      refine Or.inr ⟨i - (body.length + 1), j - (body.length + 1), by omega, by omega, (hafter _ _).2 ((hbehind _ _).1 ?_)⟩
      convert h using 1 <;> omega

theorem mem_spans_scan (before : Bool) (line : Text) (i j : Nat) :
    (i, j) ∈ spans 0 (scan before line).segments ↔ IsSpan before line i j := by
  -- The text behind a marker is scanned on its own, so the induction is on the length.
  induction hn : line.length using Nat.strongRecOn generalizing before line i j with
  | ind n ih =>
  cases line with
  | nil => simp [scan, spans, isSpan_nil]
  | cons c cs =>
    have hrest : ∀ k l, (k, l) ∈ spans 0 (scan (c = '\\') cs).segments ↔ IsSpan (c = '\\') cs k l :=
      fun k l => ih cs.length (by simp [← hn]) (c = '\\') cs k l rfl
    rw [scan]
    split
    · next hc =>
      refine mem_spans_consText_iff hrest (fun l h => ?_) i j
      have hopen := ((isSpan_cons_zero ..).1 h).1
      exact absurd (hc.symm.trans hopen) (by decide)
    · split
      · next hopen =>
        obtain ⟨rfl, rfl⟩ := hopen
        split
        · next body after hclosing =>
          obtain ⟨rest, rfl, hclose, rfl⟩ := closing_scan_eq_some hclosing
          dsimp only
          split
          · next hbody =>
            subst hbody
            refine mem_spans_consText_iff hrest (fun l h => ?_) i j
            obtain ⟨-, -, k, hk, -, hclose'⟩ := (isSpan_cons_zero ..).1 h
            have hzero : k = 0 := hclose'.unique hclose
            omega
          · next hbody =>
            have hshorter : rest.length < n := by
              simp only [← hn, List.length_cons, List.length_append]
              omega
            exact mem_spans_marker_iff hbody hclose (fun k l => ih rest.length hshorter false rest k l rfl) i j
        · next hclosing =>
          refine mem_spans_consText_iff hrest (fun l h => ?_) i j
          obtain ⟨-, -, k, -, -, hclose⟩ := (isSpan_cons_zero ..).1 h
          exact not_closesAt_of_closing_scan hclosing k hclose
      · next hopen =>
        refine mem_spans_consText_iff hrest (fun l h => hopen ?_) i j
        obtain ⟨hc, hbefore, -⟩ := (isSpan_cons_zero ..).1 h
        exact ⟨hc, hbefore⟩

end Quotation.Segment
