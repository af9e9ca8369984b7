import Quotation.Text.Glob
import Quotation.Tree.Walk

/-!
# Finding files

All files below a directory whose path or bare name some glob accepts and none excludes, in the order of their paths, name by name. A glob without a value is a fault as soon as a name would have to be compared with it, and so is a path on the way that is too long to ask about. One directory may be left out, usually the one that output goes to; it does not count if it is the very directory that is searched.
-/

namespace Quotation.Discovery

/-- The paths of the files below a place, relative to it. -/
def filesBelow (t : Tree) (place : Place) : List (List Text) :=
  t.entries.filterMap fun
    | (other, .file _) => if place <+: other ∧ other ≠ place then some (other.drop place.length) else none
    | (_, .directory) => none

/-- Whether everything below a place can be asked about by a path that starts with `root`. -/
def allShort (t : Tree) (root : Path) (place : Place) : Bool :=
  t.entries.all fun (other, _) =>
    !place.isPrefixOf other || Charset.Utf8.size (root.within ⟨.here, other.drop place.length⟩).toText ≤ pathLimit

/-- The order of paths: by their first different name. -/
def pathLe (a b : List Text) : Bool := (compare a b).isLE

/-- Whether one of the globs accepts the name; the ones after it are not looked at. -/
def accepted (name : Text) : List (Option Text) → Except Fault Bool
  | [] => .ok false
  | none :: _ => .error .noValue
  | some glob :: rest => if (Glob.ofText glob).accepts name then .ok true else accepted name rest

/-- Whether one of the globs accepts the relative path or else the bare name of a file. -/
def matchesAny (globs : List (Option Text)) (parts : List Text) : Except Fault Bool := do
  if ← accepted (Path.toText ⟨.here, parts⟩) globs then return true
  accepted (parts.getLast?.getD []) globs

def isSelected (includes excludes : List (Option Text)) (parts : List Text) : Except Fault Bool := do
  if ← matchesAny includes parts then
    let excluded ← matchesAny excludes parts
    return !excluded
  else return false

def select (includes excludes : List (Option Text)) : List (List Text) → Except Fault (List (List Text))
  | [] => .ok []
  | parts :: rest => do
    let selected ← isSelected includes excludes parts
    let others ← select includes excludes rest
    return if selected then parts :: others else others

/-- Whether the place lies inside the directory that is left out of a search below `root`. -/
def isSkipped (skip : Option Place) (root place : Place) : Bool :=
  match skip with
  | none => false
  | some skip => skip ≠ root && skip.isPrefixOf place && skip ≠ place

/-- The files below `root` that the globs select, as sorted paths relative to it. -/
def discover (t : Tree) (root : Path) (includes excludes : List (Option Text)) (skipDir : Option Path) :
    Except Fault (List Path) := do
  let skip ← skipDir.mapM t.resolve
  if ← t.isDir root then
    let place ← t.reach root
    if !allShort t root place then throw (.os .nameTooLong)
    let found ← select includes excludes ((filesBelow t place).filter fun parts => !isSkipped skip place (place ++ parts))
    return (found.mergeSort pathLe).map fun parts => ⟨.here, parts⟩
  else return []

/-- With all globs given, a name is accepted if some glob accepts it. -/
theorem accepted_map_some (name : Text) (globs : List Text) :
    accepted name (globs.map some) = .ok (globs.any fun glob => (Glob.ofText glob).accepts name) := by
  induction globs with
  | nil => rfl
  | cons glob rest ih =>
    rw [List.map_cons, accepted, ih, List.any_cons]
    cases (Glob.ofText glob).accepts name <;> rfl

end Quotation.Discovery
