import Quotation.Discovery

/-!
# Collecting input files

The files that the operands of a command line name, relative to the base directory: a file stands for itself, a directory for the files below it that the globs select, and no operand at all for the base directory. Every operand has to lie inside the base directory, and each file is taken once.
-/

namespace Quotation.Command

inductive Refusal where
  | outside (p : Path)
  | missing (p : Path)
  deriving DecidableEq, Repr

def Refusal.message : Refusal → String
  | .outside p => s!"Path is outside --base-dir: {p.render}"
  | .missing p => s!"Path not found: {p.render}"

inductive CollectError where
  | refusal (r : Refusal)
  | fault (f : Fault)
  deriving DecidableEq, Repr

structure Search where
  base : Path
  includes : List (Option Text)
  excludes : List (Option Text)
  skipDir : Option Path
  deriving DecidableEq, Repr

/-- The names that lead from the base directory to a place inside it. -/
def below? (t : Tree) (base p : Path) : Option (List Text) :=
  match t.resolve p, t.resolve base with
  | .ok place, .ok root => if root <+: place then some (place.drop root.length) else none
  | _, _ => none

/-- The files that one operand names. -/
def collectOne (t : Tree) (search : Search) (operand : Text) : Except CollectError (List Path) :=
  let full := search.base.within (Path.ofText operand)
  match below? t search.base full with
  | none => .error (.refusal (.outside full))
  | some dir =>
    match t.isDir full with
    | .error fault => .error (.fault fault)
    | .ok true =>
      let found := Discovery.discover t full search.includes search.excludes search.skipDir
      (found.map fun files => files.map fun file => Path.within ⟨.here, dir⟩ file).mapError .fault
    | .ok false => if t.isFile full then .ok [⟨.here, dir⟩] else .error (.refusal (.missing full))

/-- Without operands the base directory is taken. -/
def operandsOf (operands : List Text) : List Text := if operands.isEmpty then [Path.stay] else operands

/-- The files that all operands name, each where it is named first. -/
def collect (t : Tree) (search : Search) (operands : List Text) : Except CollectError (List Path) := do
  let found ← (operandsOf operands).mapM (collectOne t search)
  return found.flatten.eraseDups

end Quotation.Command
