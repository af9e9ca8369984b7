import Quotation.Config
import Quotation.Resolution.Reading
import Quotation.Segment
import Quotation.Citation.Reference

/-!
# Checking a file

Reports the markers of a file that would not resolve cleanly, in the order in which they stand, and writes nothing. Citations of missing files are reported only if they look like paths, so that brackets in prose stay quiet; quotes are taken but not followed.
-/

namespace Quotation

/-- A marker that would not resolve, with the number of its line. -/
structure Issue where
  file : Text
  line : Int
  marker : Text
  message : String
  deriving DecidableEq, Repr

namespace Check

/-- What is wrong with a marker that has been read, if anything is. -/
def problem? (t : Tree) (config : Config) : Reading → Except Fault (Option String)
  | .prose => .ok none
  | .faulty _ reason => .ok (some reason.message)
  | .dangling c => .ok (if Citation.looksLikePath c.ref then some "cited file not found" else none)
  | .found c target =>
    match t.excerpt config.encoding c target with
    | .ok _ => .ok none
    | .error (.citation complaint) => .ok (some complaint.error.describe)
    | .error (.fault fault) => .error fault

def issue? (t : Tree) (config : Config) (ctx : Context) (number : Nat) : Segment → Except Fault (Option Issue)
  | .text _ => .ok none
  | .marker body => do
    let problem ← problem? t config (← Reading.ofBody t ctx body)
    return problem.map fun message => ⟨ctx.citingFile.toText, number, (Segment.marker body).toText, message⟩

def lineIssues (t : Tree) (config : Config) (ctx : Context) (number : Nat) (line : Text) : Except Fault (List Issue) := do
  return (← (Segment.split line).mapM (issue? t config ctx number)).reduceOption

def issuesFrom (t : Tree) (config : Config) (ctx : Context) : Nat → List Text → Except Fault (List Issue)
  | _, [] => .ok []
  | number, line :: rest => do
    let first ← lineIssues t config ctx number line
    let others ← issuesFrom t config ctx (number + 1) rest
    return first ++ others

end Check

/-- The issues of a file; `file` is read in the directory `base`. A file that cannot be read as text is one issue, on line zero. -/
def checkFile (t : Tree) (config : Config) (base file : Path) : Except Fault (List Issue) :=
  let source := base.within file
  match t.citedLines config.encoding source with
  | .ok lines => Check.issuesFrom t config { baseDir := base, citingFile := source } 1 lines
  | .error (.citation complaint) => .ok [⟨source.toText, 0, [], complaint.error.describe⟩]
  | .error (.fault fault) => .error fault

end Quotation
