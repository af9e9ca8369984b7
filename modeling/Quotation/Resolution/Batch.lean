import Quotation.Resolution.Log
import Quotation.Tree.Write

/-!
# Resolving many files

Each file of a list is resolved against the tree that the files before it have left, and written before the next one is read. Resolved text goes to the output directory, under the path that the source has relative to the base directory; a file without citations is copied there as it is, or left alone where it would be copied onto itself. A file with a citation error ends the run, unless the run is to go on without it.
-/

namespace Quotation

structure Placed where
  resolved : Resolved
  destination : Path
  deriving DecidableEq, Repr

/-- What became of one input file. -/
inductive FileResult where
  | placed (file : Placed)
  | failed (source : Path) (complaint : Complaint)
  deriving DecidableEq, Repr

/-- What became of the input files, in their order. -/
structure Run where
  results : List FileResult
  deriving DecidableEq, Repr

namespace Run

def files (run : Run) : List Placed :=
  run.results.filterMap fun | .placed file => some file | .failed .. => none

def failures (run : Run) : List (Path × Complaint) :=
  run.results.filterMap fun | .failed source complaint => some (source, complaint) | .placed _ => none

def ok (run : Run) : Bool := run.failures.isEmpty

end Run

/-- How a step of a run ended, with the tree it left and what it logged. -/
structure Batch (α : Type) where
  tree : Tree
  log : List LogRecord
  outcome : Except Failure α

/-- Where the output for a source goes: a source outside the base directory keeps its name only. -/
def destination (base source outputDir : Path) : Path :=
  outputDir.within ((source.relativeTo? base).getD ⟨.here, if source.name = [] then [] else [source.name]⟩)

def place (t : Tree) (config : Config) (dest : Path) (resolved : Resolved) : Batch Unit :=
  let finish (log : List LogRecord) : Tree × Except Fault Unit → Batch Unit := fun (after, outcome) =>
    ⟨after, log, outcome.mapError .fault⟩
  if resolved.changed then finish [] (t.writeLines dest resolved.lines config.encoding)
  else match t.resolve dest, t.resolve resolved.source with
    | .ok target, .ok source =>
      if target = source then
        ⟨t, [⟨.debug, s!"No changes to {resolved.source.render}, leaving it untouched"⟩], .ok ()⟩
      else finish [] (t.copyFile resolved.source dest)
    | .error fault, _ => ⟨t, [], .error (.fault fault)⟩
    | _, .error fault => ⟨t, [], .error (.fault fault)⟩

def placedRecord (dest : Path) (resolved : Resolved) : LogRecord :=
  ⟨.info, s!"Resolved {resolved.source.render} -> {dest.render} ({resolved.citations} citations, {resolved.unresolved.length} unresolved)"⟩

/-- Resolves one file of a run and puts it in its place. -/
def runFile (config : Config) (base : Path) (t : Tree) (file : Path) : Batch FileResult :=
  let traced := resolveFile t config base file
  match traced.outcome with
  | .error (.citation complaint) =>
    if config.keepGoing then
      ⟨t, traced.log ++ [⟨.warning, s!"Skipping {complaint.message}"⟩], .ok (.failed (complaint.file.getD file) complaint)⟩
    else ⟨t, traced.log, .error (.citation complaint)⟩
  | .error (.fault fault) => ⟨t, traced.log, .error (.fault fault)⟩
  | .ok resolved =>
    let dest := destination base resolved.source (config.outputDir.getD base)
    let placed := place t config dest resolved
    match placed.outcome with
    | .error failure => ⟨placed.tree, traced.log ++ placed.log, .error failure⟩
    | .ok () => ⟨placed.tree, traced.log ++ placed.log ++ [placedRecord dest resolved], .ok (.placed ⟨resolved, dest⟩)⟩

def resolveFiles (config : Config) (base : Path) : Tree → List Path → Batch Run
  | t, [] => ⟨t, [], .ok ⟨[]⟩⟩
  | t, file :: rest =>
    let first := runFile config base t file
    match first.outcome with
    | .error failure => ⟨first.tree, first.log, .error failure⟩
    | .ok result =>
      let others := resolveFiles config base first.tree rest
      ⟨others.tree, first.log ++ others.log, others.outcome.map fun run => ⟨result :: run.results⟩⟩

end Quotation
