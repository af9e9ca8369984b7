import Quotation.Command.Run
import Quotation.Tree.Change

/-!
# The program

Runs a command line on the file tree whose names arrive on standard input, one per line, as a directory listing prints them: `find . | quotation -o out`. Files are read before the command runs and written after it, in the order in which directories have to be made; what happens in between is `Command.run`.
-/

namespace Quotation.Program

/-- A tree with the given working directory and the directories above it. -/
def startTree (cwd : Place) : Tree :=
  ((List.range cwd.length).map fun n => cwd.take (n + 1)).foldl (fun t place => t.insert place .directory) ⟨cwd, .empty⟩

/-- A display without colours and frames: one line for a row, with tabs between cells. -/
def displayText : Display → String
  | .markup content => content ++ "\n"
  | .table title columns rows =>
    let cell : Cell → String := fun | .literal content _ => String.ofList content | .markup content => String.ofList content
    let line := fun (cells : List String) => "\t".intercalate cells ++ "\n"
    title ++ "\n" ++ line (columns.map (·.header)) ++ String.join (rows.map fun row => line (row.map cell))
  | .panel content title _ _ => title ++ "\n" ++ String.ofList content ++ "\n"
  | .log record => s!"{record.level.name} {record.message}\n"

def unsaid : Fault → String
  | .sameFile => "source and destination are the same file"
  | .noValue => "a value is missing"
  | _ => "the margin is too wide"

/-- Puts what stands under a name into the tree; a name that cannot be read as a file counts as a directory. -/
def load (t : Tree) (name : String) : IO Tree := do
  let p := Path.ofText name.toList
  let above := (t.makeDirs p.parent).1
  let place := p.normalize t.cwd
  try
    let content ← IO.FS.readBinFile name
    return above.insert place (.file content.toList)
  catch _ =>
    return if (above.get? place).isSome then above else above.insert place .directory

def store (place : Place) (entry : Entry) : IO Unit := do
  let name := (Path.ofPlace place).render
  match entry with
  | .directory => IO.FS.createDirAll name
  | .file content => IO.FS.writeBinFile name ⟨content.toArray⟩

def inputLines (input : IO.FS.Stream) : IO (List String) := do
  let mut lines := #[]
  repeat
    let line ← input.getLine
    if line.isEmpty then break
    lines := lines.push (if line.endsWith "\n" then (line.dropEnd 1).toString else line)
  return lines.toList

end Quotation.Program

open Quotation in
def main (arguments : List String) : IO UInt32 := do
  let directory ← IO.currentDir
  let cwd := (Path.ofText s!"{directory}".toList).normalize []
  let names ← Program.inputLines (← IO.getStdin)
  let before ← names.foldlM Program.load (Program.startTree cwd)
  let outcome := Command.run before (arguments.map String.toList)
  let written := (Tree.written before outcome.tree).mergeSort fun (a, _) (b, _) => a.length ≤ b.length
  for (place, entry) in written do Program.store place entry
  for display in outcome.shown do IO.print (Program.displayText display)
  IO.print outcome.output
  IO.eprint outcome.errors
  match outcome.exit with
  | .ok code => return code.toUInt32
  | .error fault =>
    IO.eprintln (fault.message?.getD (Program.unsaid fault))
    return 1
