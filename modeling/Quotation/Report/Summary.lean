import Quotation.Check
import Quotation.Report.Json
import Quotation.Resolution.Batch

/-!
# Summaries

What reports tell about a run and about a check: as a versioned JSON document, and as the rows of a table.
-/

namespace Quotation

structure FileSummary where
  source : Path
  destination : Option Path
  lineCount : Nat
  citations : Int
  unresolved : List Text
  deriving DecidableEq, Repr

structure RunSummary where
  files : List FileSummary
  /-- The files that failed, each with its error. -/
  failures : List (Path × CitationError)
  deriving DecidableEq, Repr

def RunSummary.ok (run : RunSummary) : Bool := run.failures.isEmpty

def Placed.summary (file : Placed) : FileSummary :=
  { source := file.resolved.source, destination := some file.destination, lineCount := file.resolved.lines.length,
    citations := file.resolved.citations, unresolved := file.resolved.unresolved }

def Run.summary (run : Run) : RunSummary :=
  { files := run.files.map Placed.summary
    failures := run.failures.map fun (source, complaint) => (source, complaint.error) }

namespace Report

def version : Json := Json.ofString "1.0"

def pathJson (p : Path) : Json := .str p.toText

def configJson (config : Config) : Json :=
  .object [
    ("output_dir", config.outputDir.elim .null pathJson),
    ("recursive", .bool config.recursive),
    ("max_depth", .int config.maxDepth),
    ("fail_on_unresolved", .bool config.failOnUnresolved),
    ("outdent", .bool config.outdent),
    ("indent", .int config.indent),
    ("escape_xml", .bool config.escapeXml),
    ("encoding", config.encoding.elim .null .str)]

def fileJson (file : FileSummary) : Json :=
  .object [
    ("source", pathJson file.source),
    ("destination", file.destination.elim .null pathJson),
    ("lines", .int file.lineCount),
    ("citations", .int file.citations),
    ("unresolved", .list (file.unresolved.map .str))]

def failureJson (source : Path) (error : CitationError) : Json :=
  .object [
    ("source", pathJson source),
    ("error", Json.ofString error.kind),
    ("message", Json.ofString error.describe)]

def runJson (run : RunSummary) (config : Config) : Json :=
  .object [
    ("schema_version", version),
    ("config", configJson config),
    ("files", .list (run.files.map fileJson)),
    ("failures", .list (run.failures.map fun (source, error) => failureJson source error)),
    ("ok", .bool run.ok)]

def issueJson (issue : Issue) : Json :=
  .object [
    ("file", .str issue.file),
    ("line", .int issue.line),
    ("marker", .str issue.marker),
    ("message", Json.ofString issue.message)]

/-- The order of issues in a document: by file, then by line. -/
def issueLe (a b : Issue) : Bool := ((compare a.file b.file).then (compare a.line b.line)).isLE

/-- The document about a check; issues on the same line keep their order. -/
def issuesJson (issues : List Issue) : Json :=
  .object [
    ("schema_version", version),
    ("issues", .list ((issues.mergeSort issueLe).map issueJson)),
    ("ok", .bool issues.isEmpty)]

inductive Status where
  | ok
  | unresolved
  | failed
  deriving DecidableEq, Repr

def Status.name : Status → String
  | .ok => "ok"
  | .unresolved => "unresolved"
  | .failed => "failed"

structure Row where
  source : Text
  destination : Text
  citations : Int
  unresolved : Nat
  status : Status
  deriving DecidableEq, Repr

def fileRow (file : FileSummary) : Row :=
  { source := file.source.toText, destination := file.destination.elim ['-'] Path.toText, citations := file.citations,
    unresolved := file.unresolved.length, status := if file.unresolved.isEmpty then .ok else .unresolved }

def failureRow (source : Path) : Row :=
  { source := source.toText, destination := ['-'], citations := 0, unresolved := 0, status := .failed }

/-- The rows of the table about a run: the files that were resolved, then the ones that failed. -/
def rows (run : RunSummary) : List Row := run.files.map fileRow ++ run.failures.map fun (source, _) => failureRow source

end Report

end Quotation
