import Quotation.Command.Arguments
import Quotation.Command.Collect
import Quotation.Report.Display

/-!
# Running a command

A command line is run on a file tree. The outcome is the tree it leaves, what it prints, and its exit code: zero if all went well, one for input that cannot be used or a check with issues, and two for errors in the command line or in citations. A fault takes the place of the exit code.
-/

namespace Quotation.Command

/-- What a command leaves behind. -/
structure Outcome where
  tree : Tree
  output : String := ""
  errors : String := ""
  /-- What is shown by way of tables. -/
  shown : List Display := []
  exit : Except Fault Nat

def Outcome.ofError (t : Tree) (code : Nat) (message : String) : Outcome :=
  { tree := t, errors := message ++ "\n", exit := .ok code }

/-- What keeps options from describing a configuration. -/
inductive OptionError where
  | negative (s : Switch)
  | fault (f : Fault)
  deriving DecidableEq, Repr

/-- The number that a switch was given. A number below zero makes no sense for any of them. -/
def countOf (s : Switch) : Option Int → Except OptionError Int
  | none => .error (.fault .noValue)
  | some n => if n < 0 then .error (.negative s) else .ok n

def configOf (options : Options) : Except OptionError Config := do
  let maxDepth ← countOf .maxDepth options.maxDepth
  let indent ← countOf .indent options.indent
  return {
    outputDir := options.outputDir.bind fun dir => if dir.isEmpty then none else some (Path.ofText dir)
    recursive := options.recursive, maxDepth, failOnUnresolved := options.failOnUnresolved, outdent := options.outdent, indent
    escapeXml := options.escapeXml, encoding := options.encoding, keepGoing := options.keepGoing }

/-- The records that are shown: warnings, and all others on request. -/
def shownRecords (options : Options) (log : List LogRecord) : List LogRecord :=
  log.filter fun record => options.verbose || record.level = .warning

def recordLine (record : LogRecord) : String := s!"{record.level.name} quoting.resolver: {record.message}\n"

/-- Shows log records before the rest of an outcome, as the format has it. -/
def Outcome.withLog (options : Options) (log : List LogRecord) (outcome : Outcome) : Outcome :=
  let records := shownRecords options log
  match options.format with
  | .rich => { outcome with shown := records.map .log ++ outcome.shown }
  | .plain | .json => { outcome with errors := String.join (records.map recordLine) ++ outcome.errors }

/-- The outcome of a failure; a citation error is printed with further advice. -/
def Outcome.ofFailure (t : Tree) (advice : String) : Failure → Outcome
  | .fault fault => { tree := t, exit := .error fault }
  | .citation complaint => { tree := t, errors := s!"Error: {complaint.message}\n" ++ advice, exit := .ok 2 }

def printed (document : Json) : String := String.ofList document.toText ++ "\n"

/-! ### The three modes -/

def runQuote (t : Tree) (options : Options) (config : Config) (base : Path) (text : Text) : Outcome :=
  let traced := resolveText t config base text
  Outcome.withLog options traced.log <|
    match traced.outcome with
    | .ok quote => { tree := t, output := String.ofList quote ++ "\n", exit := .ok 0 }
    | .error failure => Outcome.ofFailure t "" failure

def issueLine (issue : Issue) : String :=
  s!"- {String.ofList issue.file}:{issue.line}: {String.ofList issue.marker}: {issue.message}\n"

def runCheck (t : Tree) (options : Options) (config : Config) (base : Path) (files : List Path) : Outcome :=
  match files.mapM (checkFile t config base) with
  | .error fault => { tree := t, exit := .error fault }
  | .ok found =>
    let issues := found.flatten
    let exit := .ok (if issues.isEmpty then 0 else 1)
    match options.format with
    | .json => { tree := t, output := printed (Report.issuesJson issues), exit }
    | .rich => { tree := t, shown := Report.issuesDisplay issues, exit }
    | .plain =>
      let text :=
        if issues.isEmpty then "All citations resolve.\n"
        else "Citation check failed:\n\n" ++ String.join (issues.map issueLine)
      { tree := t, output := text, exit }

/-- A file of a run as lines of text: where it went, and its markers of missing files. -/
def fileLines (file : Placed) : String :=
  let resolved := file.resolved
  s!"{resolved.source.render} -> {file.destination.render} ({resolved.citations} citations, {resolved.unresolved.length} unresolved)\n" ++
    String.join (resolved.unresolved.map fun marker => s!"  unresolved: {String.ofList marker}\n")

def failureLine (source : Path) (complaint : Complaint) : String := s!"FAILED {source.render}: {complaint.error.describe}\n"

def keepGoingTip : String := "Tip: use --keep-going to resolve the remaining files anyway.\n"

def runResolve (t : Tree) (options : Options) (config : Config) (base : Path) (files : List Path) : Outcome :=
  let batch := resolveFiles config base t files
  Outcome.withLog options batch.log <|
    match batch.outcome with
    | .error failure => Outcome.ofFailure batch.tree keepGoingTip failure
    | .ok run =>
      let exit := .ok (if run.ok then 0 else 2)
      match options.format with
      | .json => { tree := batch.tree, output := printed (Report.runJson run.summary config), exit }
      | .rich => { tree := batch.tree, shown := Report.runDisplay run.summary, exit }
      | .plain =>
        { tree := batch.tree, output := String.join (run.files.map fileLines)
          errors := String.join (run.failures.map fun (source, complaint) => failureLine source complaint), exit }

/-! ### The command -/

/-- The files of a search, or the outcome that there are none to work on. -/
def withFiles (t : Tree) (search : Search) (operands : List Text) (work : List Path → Outcome) : Outcome :=
  match collect t search operands with
  | .error (.fault fault) => { tree := t, exit := .error fault }
  | .error (.refusal refusal) => Outcome.ofError t 1 refusal.message
  | .ok [] => Outcome.ofError t 1 "No input files found."
  | .ok files => work files

/-- The files that a command line looks for: those that its operands name, but none in the output directory. -/
def searchOf (options : Options) (config : Config) (base : Path) : Search :=
  { base, includes := if options.includes.isEmpty then [some ['*']] else options.includes, excludes := options.excludes
    skipDir := config.outputDir }

/-- Runs a command in a base directory that is there. -/
def runInBase (t : Tree) (options : Options) (config : Config) (base : Path) : Outcome :=
  match options.quote with
  | some (c :: cs) => runQuote t options config base (c :: cs)
  | _ =>
    withFiles t (searchOf options config base) options.paths <|
      if options.check then runCheck t options config base else runResolve t options config base

def runConfigured (t : Tree) (options : Options) (config : Config) : Outcome :=
  match options.baseDir with
  | none => { tree := t, exit := .error .noValue }
  | some written =>
    let base := Path.ofText written
    match t.isDir base with
    | .error fault => { tree := t, exit := .error fault }
    | .ok false => Outcome.ofError t 1 s!"--base-dir not found: {base.render}"
    | .ok true => runInBase t options config base

def programName : String := "citequote"

def usage : String :=
  let switches := " ".intercalate (Switch.all.map fun s => s!"[{s.name}]")
  s!"usage: {programName} {switches} [paths ...]\n"

def run (t : Tree) (arguments : List Text) : Outcome :=
  match parse arguments with
  | .error .help => { tree := t, output := usage, exit := .ok 0 }
  | .error (.usage e) => Outcome.ofError t 2 s!"{programName}: error: {e.message}"
  | .ok options =>
    match configOf options with
    | .error (.fault fault) => { tree := t, exit := .error fault }
    | .error (.negative s) => Outcome.ofError t 1 s!"{s.name} must be zero or more"
    | .ok config => runConfigured t options config

end Quotation.Command
