import Quotation.Report.Summary

/-!
# Displays

What is handed to the terminal when a report is shown as tables: marked-up text, tables and panels. A cell holds either literal text with a style or text in which brackets are markup. Literal text is without the characters that would move the cursor inside its line or ring the bell; nothing else is lost from it.
-/

namespace Quotation

inductive Cell where
  | literal (content : Text) (style : String)
  | markup (content : Text)
  deriving DecidableEq, Repr

structure Column where
  header : String
  justify : String := "left"
  overflow : String := "ellipsis"
  noWrap : Bool := false
  style : String := ""
  deriving DecidableEq, Repr

inductive Display where
  | markup (content : String)
  | table (title : String) (columns : List Column) (rows : List (List Cell))
  | panel (content : Text) (title borderStyle : String) (expand : Bool)
  | log (record : LogRecord)
  deriving DecidableEq, Repr

namespace Report

/-- The bell, and the characters that move the cursor without ending a line as a line feed does. -/
def isCursorControl (c : Char) : Bool := c ∈ ['\x07', '\x08', '\x0b', '\x0c', '\r']

def shown (t : Text) : Text := t.filter fun c => !isCursorControl c

def Status.style : Status → String
  | .ok => "green"
  | .unresolved => "bold yellow"
  | .failed => "bold red"

def rowCells (row : Row) : List Cell :=
  [.literal (shown row.source) "",
    .markup row.destination,
    .markup (Text.ofInt row.citations),
    .literal (Text.ofInt row.unresolved) (if row.unresolved = 0 then "dim" else Status.style row.status),
    .literal row.status.name.toList (Status.style row.status)]

def runTable (rows : List Row) : Display :=
  .table "Resolved files"
    [{ header := "Source", overflow := "fold" },
      { header := "Written to", overflow := "fold" },
      { header := "Citations", justify := "right", noWrap := true },
      { header := "Unresolved", justify := "right", noWrap := true },
      { header := "Status", justify := "center", noWrap := true }]
    (rows.map rowCells)

def failurePanel (failures : List (Path × CitationError)) : Display :=
  .panel (shown (Text.join '\n' (failures.map fun (_, error) => s!"- {error.describe}".toList)))
    s!"{failures.length} file(s) failed" "red" false

/-- A run on the terminal: the table of files, and a panel of errors if there are any. -/
def runDisplay (run : RunSummary) : List Display :=
  runTable (rows run) :: if run.failures.isEmpty then [] else [failurePanel run.failures]

def issueCells (issue : Issue) : List Cell :=
  [.literal (shown issue.file) "", .markup (Text.ofInt issue.line), .literal (shown issue.marker) "",
    .literal (shown issue.message.toList) ""]

/-- A check on the terminal: the table of issues, or a word that there are none. -/
def issuesDisplay (issues : List Issue) : List Display :=
  if issues.isEmpty then [.markup "[green]All citations resolve.[/green]"]
  else
    [.table "Citation check"
      [{ header := "File", overflow := "fold" },
        { header := "Line", justify := "right", noWrap := true },
        { header := "Marker", overflow := "fold" },
        { header := "Problem", style := "yellow" }]
      (issues.map issueCells)]

end Report

end Quotation
