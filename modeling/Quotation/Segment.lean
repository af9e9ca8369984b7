import Quotation.Text.Line

/-!
# Segments

A line is a sequence of markers and of the text between them. A marker runs from an opening bracket to the next closing one, with something between the two and no other opening bracket; an opening bracket right after a backslash opens nothing. A marker segment holds what stands between its brackets.
-/

namespace Quotation

inductive Segment where
  | text (content : Text)
  | marker (body : Text)
  deriving DecidableEq, Repr

namespace Segment

def toText : Segment → Text
  | .text content => content
  | .marker body => '[' :: body ++ [']']

def isMarker : Segment → Bool
  | .text _ => false
  | .marker _ => true

/-- Puts a character in front of a sequence of segments, into the text it starts with or as a text of its own. -/
def consText (c : Char) : List Segment → List Segment
  | .text content :: rest => .text (c :: content) :: rest
  | rest => .text [c] :: rest

/-- The two ways to read the rest of a line. -/
structure Scan where
  /-- The segments, read where no bracket is open. -/
  segments : List Segment
  /-- Read inside a marker: the rest of its body and the segments that follow it, if the marker is ever closed. -/
  closing : Option (Text × List Segment)

/-- Reads a line from its end. `escaped` says that a backslash stands right before the text. -/
def scan (escaped : Bool) : Text → Scan
  | [] => ⟨[], none⟩
  | c :: cs =>
    let rest := scan (c = '\\') cs
    if c = ']' then ⟨consText c rest.segments, some ([], rest.segments)⟩
    else if c = '[' ∧ escaped = false then
      match rest.closing with
      | some (body, after) => ⟨if body = [] then consText c rest.segments else .marker body :: after, none⟩
      | none => ⟨consText c rest.segments, none⟩
    else ⟨consText c rest.segments, rest.closing.map fun (body, after) => (c :: body, after)⟩

/-- The segments of a line; an empty line is one empty text. -/
def split (line : Text) : List Segment :=
  match (scan false line).segments with
  | [] => [.text []]
  | segments => segments

def hasMarkers (t : Text) : Bool := (Text.lines t).any fun line => (split line).any isMarker

/-- The line that segments make up. -/
def joinAll (segments : List Segment) : Text := segments.flatMap toText

theorem joinAll_consText (c : Char) (segments : List Segment) : joinAll (consText c segments) = c :: joinAll segments := by
  fun_cases consText c segments <;> simp [joinAll, toText]

private theorem joinAll_scan (escaped : Bool) (line : Text) :
    joinAll (scan escaped line).segments = line ∧
      ∀ body after, (scan escaped line).closing = some (body, after) → body ++ ']' :: joinAll after = line := by
  induction line generalizing escaped with
  | nil => simp [scan, joinAll]
  | cons c cs ih =>
    have outside : ∀ flag, joinAll (scan flag cs).segments = cs := fun flag => (ih flag).1
    have inside := fun flag => (ih flag).2
    rw [scan]
    split
    · next hc => simp [joinAll_consText, outside, hc]
    · split
      · next hc =>
        obtain ⟨rfl, -⟩ := hc
        split
        · next body after h =>
          by_cases hbody : body = []
          · simp [hbody, joinAll_consText, outside]
          · have closed := inside _ body after h
            simpa [hbody, joinAll, toText] using closed
        · simp [joinAll_consText, outside]
      · refine ⟨by simp [joinAll_consText, outside], ?_⟩
        intro body after h
        obtain ⟨⟨b, a⟩, hrest, hpair⟩ := Option.map_eq_some_iff.1 h
        simp only [Prod.mk.injEq] at hpair
        obtain ⟨rfl, rfl⟩ := hpair
        simp [inside _ b a hrest]

/-- Splitting loses nothing. -/
theorem joinAll_split (line : Text) : joinAll (split line) = line := by
  have whole := (joinAll_scan false line).1
  rw [split]
  split
  · next h => rw [← whole, h]; rfl
  · exact whole

end Segment

end Quotation
