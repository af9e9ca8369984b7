import Quotation.Excerpt
import Quotation.Failure
import Quotation.Resolution.Context

/-!
# What a marker turns out to be

Brackets hold citations, but prose too. A marker that does not parse is prose unless its reference names an existing file, and a citation may lead to a file or to none. Both resolving and checking start from this distinction, and both take quotes from files in the same way.
-/

namespace Quotation

/-- What a marker turns out to be. -/
inductive Reading where
  | prose
  /-- A malformed citation of an existing file. -/
  | faulty (token : Text) (reason : Malformed)
  /-- A citation of a file that is not there. -/
  | dangling (c : Citation)
  | found (c : Citation) (target : Path)
  deriving DecidableEq, Repr

namespace Reading

def ofCitation (t : Tree) (ctx : Context) (c : Citation) : Except Fault Reading :=
  (ctx.locate t c.ref).map fun
    | some target => .found c target
    | none => .dangling c

/-- Reads what stands between the brackets of a marker. -/
def ofBody (t : Tree) (ctx : Context) (body : Text) : Except Fault Reading :=
  match Citation.parse body with
  | .ok c => ofCitation t ctx c
  | .error (.tooManyDigits count) => .error (.tooManyDigits count)
  | .error (.malformed token reason) =>
    (ctx.locate t (Citation.refOf body)).map fun
      | some _ => .faulty token reason
      | none => .prose

end Reading

/-- The lines of a file that takes part in a citation; not being able to read it as text is a citation error. -/
def Tree.citedLines (t : Tree) (encoding : Option Text) (p : Path) : Except Failure (List Text) :=
  (t.readLines p encoding).mapError fun
    | .os e => (CitationError.unreadable p (.os e p)).failure
    | .decoding e => (CitationError.unreadable p (.decoding e)).failure
    | fault => .fault fault

/-- What a citation quotes from the file it leads to. -/
def Tree.excerpt (t : Tree) (encoding : Option Text) (c : Citation) (target : Path) : Except Failure Text := do
  let lines ← t.citedLines encoding target
  (Excerpt.extract lines c).mapError CitationError.failure

end Quotation
