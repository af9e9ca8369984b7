import Quotation.Text.Basic

/-!
# Paths

A path is a list of names under an anchor. Reading a path drops empty names and single dots and keeps double dots, since `a/..` asks for the directory `a` to exist. Exactly two leading slashes are an anchor of their own; any other number above zero is the root.

A place is a path in its final form: the names from the root down, without any double dots.
-/

namespace Quotation

/-- Where a path starts. -/
inductive Anchor where
  | here
  | root
  | doubleRoot
  deriving DecidableEq, Repr

structure Path where
  anchor : Anchor
  parts : List Text
  deriving DecidableEq, Repr

/-- The names from the root down to a file or directory. -/
abbrev Place := List Text

namespace Path

/-- The directory above. -/
def up : Text := ['.', '.']

/-- The directory itself. -/
def stay : Text := ['.']

/-- The anchor that a run of leading slashes makes. -/
def anchorOf (t : Text) : Anchor :=
  match (t.takeWhile (· = '/')).length with
  | 0 => .here
  | 2 => .doubleRoot
  | _ => .root

def ofText (t : Text) : Path :=
  ⟨anchorOf t, (Text.splitOn '/' t).filter fun part => part ≠ [] ∧ part ≠ stay⟩

def slashes : Anchor → Text
  | .here => []
  | .root => ['/']
  | .doubleRoot => ['/', '/']

def toText (p : Path) : Text :=
  match p.anchor, p.parts with
  | .here, [] => ['.']
  | anchor, parts => slashes anchor ++ Text.join '/' parts

def render (p : Path) : String := String.ofList p.toText

def here : Path := ⟨.here, []⟩

def ofPlace (place : Place) : Path := ⟨.root, place⟩

def isAbsolute (p : Path) : Bool := p.anchor ≠ .here

/-- What `p` means when read in the directory `base`: an absolute path stands for itself. -/
def within (base p : Path) : Path := if p.isAbsolute then p else ⟨base.anchor, base.parts ++ p.parts⟩

/-- The path without its last name; a path without names is its own parent. -/
def parent (p : Path) : Path := ⟨p.anchor, p.parts.dropLast⟩

def name (p : Path) : Text := p.parts.getLast?.getD []

/-- The names by which `p` goes on after `base`, if it starts with it. -/
def relativeTo? (p base : Path) : Option Path :=
  if p.anchor = base.anchor ∧ base.parts <+: p.parts then some ⟨.here, p.parts.drop base.parts.length⟩ else none

/-- Whether a name holds the null character, which no file name may. -/
def hasNull (p : Path) : Bool := p.parts.any fun part => part.any (· = '\x00')

/-- One step from a place by name; double dots go up and stay at the root, a single dot stays in place. -/
def step (place : Place) (part : Text) : Place :=
  if part = up then place.dropLast else if part = stay then place else place ++ [part]

/-- The place that a path read in the working directory `cwd` names, as far as names alone can tell. -/
def normalize (cwd : Place) (p : Path) : Place :=
  p.parts.foldl step (match p.anchor with | .here => cwd | _ => [])

@[simp] theorem within_of_isAbsolute {base p : Path} (h : p.isAbsolute = true) : within base p = p := if_pos h

theorem within_of_here (base : Path) (parts : List Text) :
    within base ⟨.here, parts⟩ = ⟨base.anchor, base.parts ++ parts⟩ := rfl

theorem relativeTo?_within (base : Path) (parts : List Text) :
    relativeTo? (within base ⟨.here, parts⟩) base = some ⟨.here, parts⟩ := by
  simp [relativeTo?, within_of_here]

theorem normalize_within (cwd : Place) (base : Path) (parts : List Text) :
    normalize cwd (within base ⟨.here, parts⟩) = parts.foldl step (normalize cwd base) := by
  simp [normalize, within_of_here, List.foldl_append]

end Path

end Quotation
