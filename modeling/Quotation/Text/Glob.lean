import Quotation.Text.CharSet
import Quotation.Text.Basic

/-!
# Globs

A glob describes names: a star stands for any run of characters, separators and line breaks included, a question mark for any one character, and a bracket expression for one character of a set. The set lists characters and ranges; an exclamation mark in front turns it into its complement, and a closing bracket right at its start belongs to it. A range that runs backwards is left out together with its two ends.
-/

namespace Quotation

/-- What one position of a glob asks of a name. -/
inductive Glob.Part where
  | literal (c : Char)
  | any
  | run
  | oneOf (set : CharSet)
  | noneOf (set : CharSet)
  deriving DecidableEq, Repr

abbrev Glob := List Glob.Part

namespace Glob

/-! ### Bracket expressions -/

/-- The inside of a bracket expression whose opening bracket has been read, and what follows the closing one. -/
def bracket? (t : Text) : Option (Text × Text) :=
  let mark := t.takeWhile (· = '!') |>.take 1
  let closing := (t.drop mark.length).takeWhile (· = ']') |>.take 1
  let start := mark ++ closing
  (Text.cut ']' (t.drop start.length)).map fun (inside, rest) => (start ++ inside, rest)

/-- Cuts at the hyphens that make ranges. Such a hyphen has at least `skip` characters before it in its own chunk, so that the end of one range is never the start of the next. -/
def chunks (skip : Nat) : Text → List Text
  | [] => [[]]
  | c :: cs =>
    if c = '-' ∧ skip = 0 then [] :: chunks 2 cs else (chunks (skip - 1) cs).modifyHead (c :: ·)

/-- A hyphen at the very end makes no range. -/
def keepLastHyphen : List Text → List Text
  | [chunk, []] => [chunk ++ ['-']]
  | chunk :: rest => chunk :: keepLastHyphen rest
  | [] => []

/-- Takes out the ranges that run backwards, from the right. -/
def dropBackward : List Text → List Text
  | [] => []
  | chunk :: rest =>
    match dropBackward rest with
    | [] => [chunk]
    | next :: others =>
      match chunk.getLast?, next.head? with
      | some low, some high =>
        if high < low then (chunk.dropLast ++ next.drop 1) :: others else chunk :: next :: others
      | _, _ => chunk :: next :: others

/-- The characters of the chunks, with nothing standing for a hyphen that makes a range. -/
def items : List Text → List (Option Char)
  | [] => []
  | [chunk] => chunk.map some
  | chunk :: rest => chunk.map some ++ none :: items rest

def setOf : List (Option Char) → CharSet
  | [] => []
  | some low :: none :: some high :: rest => (low.toNat, high.toNat) :: setOf rest
  | some c :: rest => (c.toNat, c.toNat) :: setOf rest
  | none :: rest => ('-'.toNat, '-'.toNat) :: setOf rest

def ofBracket (inside : Text) : Part :=
  let skip := if inside.head? = some '!' then 2 else 1
  match items (dropBackward (keepLastHyphen (chunks skip inside))) with
  | some '!' :: rest => .noneOf (setOf rest)
  | all => .oneOf (setOf all)

theorem length_lt_of_bracket?_eq_some {t inside rest : Text} (h : bracket? t = some (inside, rest)) :
    rest.length < t.length := by
  obtain ⟨⟨middle, after⟩, hcut, hpair⟩ := Option.map_eq_some_iff.1 h
  simp only [Prod.mk.injEq] at hpair
  obtain ⟨-, rfl⟩ := hpair
  have length := congrArg List.length (Text.cut_eq_some hcut).1
  simp only [List.length_drop, List.length_append, List.length_cons] at length
  omega

/-! ### Reading and matching -/

/-- Reads a glob; a bracket that is never closed stands for itself. -/
def ofText : Text → Glob
  | [] => []
  | '*' :: cs => .run :: ofText cs
  | '?' :: cs => .any :: ofText cs
  | '[' :: cs =>
    match _closed : bracket? cs with
    | some (inside, rest) => ofBracket inside :: ofText rest
    | none => .literal '[' :: ofText cs
  | c :: cs => .literal c :: ofText cs
termination_by t => t.length
decreasing_by
  all_goals simp only [List.length_cons]
  all_goals first
    | omega
    | exact Nat.lt_succ_of_lt (length_lt_of_bracket?_eq_some (by assumption))

/-- Whether a part that stands for one character stands for this one. -/
def Part.accepts : Part → Char → Bool
  | .literal d, c => c = d
  | .any, _ => true
  | .run, _ => true
  | .oneOf set, c => set.has c
  | .noneOf set, c => !set.has c

/-- At each position, whether some answer there or further on is yes. -/
def hereOrLater : List Bool → List Bool
  | [] => []
  | answer :: rest =>
    let later := hereOrLater rest
    (answer || later.headD false) :: later

/-- Whether the glob describes the text, and each of the ends of the text in turn down to the empty one. Every part looks at every position once, however many stars there are. -/
def answers : Glob → Text → List Bool
  | [], t => t.map (fun _ => false) ++ [true]
  | .run :: parts, t => hereOrLater (answers parts t)
  | part :: parts, t => t.zipWith (fun c rest => part.accepts c && rest) (answers parts t).tail ++ [false]

/-- Whether the glob describes the whole of the name. -/
def accepts (glob : Glob) (t : Text) : Bool := (answers glob t).headD false

/-! ### What matching comes to

The answers for the ends of a text are the answers for its tail (`answers_cons`). So matching obeys the equations of a search that tries every length for a star. -/

theorem answers_part {part : Part} (h : part ≠ .run) (parts : Glob) (t : Text) :
    answers (part :: parts) t =
      t.zipWith (fun c rest => part.accepts c && rest) (answers parts t).tail ++ [false] := by
  rw [answers]
  exact h

theorem answers_eq (glob : Glob) (t : Text) : answers glob t = accepts glob t :: (answers glob t).tail := by
  have nonempty : answers glob t ≠ [] := by
    induction glob with
    | nil => simp [answers]
    | cons part parts ih =>
      by_cases h : part = .run
      · cases hrest : answers parts t <;> simp_all [answers, hereOrLater]
      · simp [answers_part h]
  cases h : answers glob t with
  | nil => exact absurd h nonempty
  | cons answer rest => simp [accepts, h]

theorem tail_answers_nil (glob : Glob) : (answers glob []).tail = [] := by
  induction glob with
  | nil => rfl
  | cons part parts ih =>
    by_cases h : part = .run
    · rw [h, answers, answers_eq, ih]; rfl
    · simp [answers_part h]

theorem tail_answers_cons (glob : Glob) (c : Char) (cs : Text) : (answers glob (c :: cs)).tail = answers glob cs := by
  induction glob with
  | nil => rfl
  | cons part parts ih =>
    by_cases h : part = .run
    · rw [h, answers, answers_eq, ih]; rfl
    · rw [answers_part h, answers_part h, ih, answers_eq parts cs]; rfl

theorem answers_cons (glob : Glob) (c : Char) (cs : Text) :
    answers glob (c :: cs) = accepts glob (c :: cs) :: answers glob cs := by
  rw [answers_eq, tail_answers_cons]

@[simp] theorem accepts_nil (t : Text) : accepts [] t = t.isEmpty := by cases t <;> rfl

theorem accepts_run_nil (parts : Glob) : accepts (.run :: parts) [] = accepts parts [] := by
  rw [accepts, answers, answers_eq, tail_answers_nil]
  simp [hereOrLater]

/-- A star takes nothing, or one character and goes on. -/
theorem accepts_run_cons (parts : Glob) (c : Char) (cs : Text) :
    accepts (.run :: parts) (c :: cs) = (accepts parts (c :: cs) || accepts (.run :: parts) cs) := by
  rw [accepts, answers, answers_cons]
  rfl

theorem accepts_part_nil {part : Part} (h : part ≠ .run) (parts : Glob) : accepts (part :: parts) [] = false := by
  rw [accepts, answers_part h]
  rfl

/-- Any other part takes one character. -/
theorem accepts_part_cons {part : Part} (h : part ≠ .run) (parts : Glob) (c : Char) (cs : Text) :
    accepts (part :: parts) (c :: cs) = (part.accepts c && accepts parts cs) := by
  rw [accepts, answers_part h, tail_answers_cons, answers_eq parts cs]
  rfl

/-- A star stands for any run of characters. -/
theorem accepts_run_iff (parts : Glob) (t : Text) :
    accepts (.run :: parts) t = true ↔ ∃ dropped kept, t = dropped ++ kept ∧ accepts parts kept = true := by
  induction t with
  | nil => simp [accepts_run_nil, and_assoc]
  | cons c cs ih =>
    rw [accepts_run_cons, Bool.or_eq_true, ih]
    constructor
    · rintro (h | ⟨dropped, kept, rfl, h⟩)
      · exact ⟨[], c :: cs, rfl, h⟩
      · exact ⟨c :: dropped, kept, rfl, h⟩
    · rintro ⟨dropped, kept, hsplit, h⟩
      cases dropped with
      | nil => exact Or.inl (by simpa [hsplit] using h)
      | cons d ds =>
        simp only [List.cons_append, List.cons.injEq] at hsplit
        exact Or.inr ⟨ds, kept, hsplit.2, h⟩

/-- A single star describes every name. -/
theorem accepts_run (t : Text) : accepts [.run] t = true := (accepts_run_iff [] t).2 ⟨t, [], by simp⟩

end Glob

end Quotation
