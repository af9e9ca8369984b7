/-!
# Text

Text is a list of characters, so that every definition over it is a plain recursion. This module cuts text at a separator and puts the pieces together again; `join_splitOn` says that nothing is lost on the way.
-/

namespace Quotation

/-- A line, a name, a marker or any other run of characters. -/
abbrev Text := List Char

namespace Text

/-- The pieces between the occurrences of `sep`, empty ones included; there is always at least one. -/
def splitOn (sep : Char) : Text → List Text
  | [] => [[]]
  | c :: cs => if c = sep then [] :: splitOn sep cs else (splitOn sep cs).modifyHead (c :: ·)

/-- The pieces in order with `sep` between neighbours. -/
def join (sep : Char) : List Text → Text
  | [] => []
  | [piece] => piece
  | piece :: next :: rest => piece ++ sep :: join sep (next :: rest)

/-- What stands before and after the first `sep`, or nothing when there is none. -/
def cut (sep : Char) : Text → Option (Text × Text)
  | [] => none
  | c :: cs => if c = sep then some ([], cs) else (cut sep cs).map fun (before, after) => (c :: before, after)

/-- What stands before the first `sep`, or the whole text when there is none. -/
def before (sep : Char) (t : Text) : Text := t.takeWhile (· ≠ sep)

/-- What follows the first occurrence of `pattern`. -/
def after? (pattern : Text) : Text → Option Text
  | [] => if pattern.isEmpty then some [] else none
  | c :: cs => if pattern.isPrefixOf (c :: cs) then some ((c :: cs).drop pattern.length) else after? pattern cs

def contains (pattern t : Text) : Bool := (after? pattern t).isSome

def ofInt (n : Int) : Text := (toString n).toList

theorem splitOn_ne_nil (sep : Char) (t : Text) : splitOn sep t ≠ [] := by
  induction t with
  | nil => simp [splitOn]
  | cons c cs ih =>
    rw [splitOn]
    split
    · simp
    · cases h : splitOn sep cs with
      | nil => exact absurd h ih
      | cons piece rest => simp

theorem join_cons_cons (sep c : Char) (piece : Text) (rest : List Text) :
    join sep ((c :: piece) :: rest) = c :: join sep (piece :: rest) := by
  cases rest <;> rfl

@[simp] theorem join_splitOn (sep : Char) (t : Text) : join sep (splitOn sep t) = t := by
  induction t with
  | nil => rfl
  | cons c cs ih =>
    rw [splitOn]
    cases h : splitOn sep cs with
    | nil => exact absurd h (splitOn_ne_nil sep cs)
    | cons piece rest =>
      rw [h] at ih
      by_cases hc : c = sep
      · simp [hc, join, ih]
      · simp [hc, join_cons_cons, ih]

theorem cut_eq_some {sep : Char} {t first second : Text} (h : cut sep t = some (first, second)) :
    t = first ++ sep :: second ∧ sep ∉ first := by
  induction t generalizing first with
  | nil => simp [cut] at h
  | cons c cs ih =>
    rw [cut] at h
    split at h
    · next hc =>
      simp only [Option.some.injEq, Prod.mk.injEq] at h
      obtain ⟨rfl, rfl⟩ := h
      simp [hc]
    · next hc =>
      obtain ⟨⟨b, a⟩, hcut, hpair⟩ := Option.map_eq_some_iff.1 h
      simp only [Prod.mk.injEq] at hpair
      obtain ⟨rfl, rfl⟩ := hpair
      obtain ⟨rfl, hmem⟩ := ih hcut
      exact ⟨rfl, by simp [hmem, Ne.symm hc]⟩

end Text

end Quotation
