import Quotation.Failure

/-!
# Traced computations

Resolving a text meets one marker after the other, and may fail at any of them. A traced computation records what it met in order, up to the point where it ended, next to how it ended. What a sequence records is what its first part records followed by what the rest records (`events_bind`). Counts and log lines are read off the record.
-/

namespace Quotation

/-- What happened at a marker. -/
inductive Event where
  /-- No citation of an existing file; the marker stays. -/
  | left (marker : Text)
  /-- A citation of a missing file; the marker stays. -/
  | unresolved (marker : Text)
  /-- A citation of an existing file, about to be quoted. -/
  | cited (marker : Text) (target : Path)
  /-- The markers in the text quoted from `target` come next, nested `depth` deep. -/
  | entered (target : Path) (depth : Int)
  deriving DecidableEq, Repr

/-- A computation with a record of its events. -/
structure Traced (α : Type) where
  events : List Event
  outcome : Except Failure α

namespace Traced

variable {α β γ : Type}

theorem ext {a b : Traced α} (events : a.events = b.events) (outcome : a.outcome = b.outcome) : a = b := by
  cases a; cases b; simp_all

protected def pure (a : α) : Traced α := ⟨[], .ok a⟩

protected def bind (x : Traced α) (next : α → Traced β) : Traced β :=
  match x.outcome with
  | .ok a => ⟨x.events ++ (next a).events, (next a).outcome⟩
  | .error failure => ⟨x.events, .error failure⟩

instance : Monad Traced where
  pure := Traced.pure
  bind := Traced.bind

def note (event : Event) : Traced Unit := ⟨[event], .ok ()⟩

def lift (outcome : Except Failure α) : Traced α := ⟨[], outcome⟩

def fail (error : CitationError) : Traced α := lift (.error error.failure)

@[simp] theorem events_pure (a : α) : (pure a : Traced α).events = [] := rfl
@[simp] theorem outcome_pure (a : α) : (pure a : Traced α).outcome = .ok a := rfl
@[simp] theorem events_note (event : Event) : (note event).events = [event] := rfl
@[simp] theorem outcome_note (event : Event) : (note event).outcome = .ok () := rfl
@[simp] theorem events_lift (outcome : Except Failure α) : (lift outcome).events = [] := rfl
@[simp] theorem outcome_lift (outcome : Except Failure α) : (lift outcome).outcome = outcome := rfl

theorem events_bind (x : Traced α) (next : α → Traced β) :
    (x >>= next).events = x.events ++ match x.outcome with | .ok a => (next a).events | .error _ => [] := by
  change (Traced.bind x next).events = _
  rw [Traced.bind]
  cases x.outcome <;> simp

theorem outcome_bind (x : Traced α) (next : α → Traced β) :
    (x >>= next).outcome = match x.outcome with | .ok a => (next a).outcome | .error failure => .error failure := by
  change (Traced.bind x next).outcome = _
  rw [Traced.bind]
  cases x.outcome <;> rfl

theorem map_eq_bind (f : α → β) (x : Traced α) : f <$> x = x >>= fun a => pure (f a) := rfl

instance : LawfulMonad Traced := LawfulMonad.mk' Traced
  (by
    intro α x
    rw [map_eq_bind]
    apply ext
    · rw [events_bind]; cases x.outcome <;> simp
    · rw [outcome_bind]; cases x.outcome <;> rfl)
  (by intro α β a next; apply ext <;> simp [events_bind, outcome_bind])
  (by
    intro α β γ x f g
    apply ext
    · simp only [events_bind, outcome_bind]; cases x.outcome <;> simp
    · simp only [outcome_bind]; cases x.outcome <;> rfl)

end Traced

end Quotation
