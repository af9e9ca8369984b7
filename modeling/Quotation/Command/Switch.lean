import Quotation.Text.Quoted

/-!
# Switches

The switches of the command line and their spellings. Messages name a switch by all its spellings.
-/

namespace Quotation.Command

inductive Switch where
  | help
  | baseDir
  | outputDir
  | includes
  | excludes
  | recursive
  | maxDepth
  | failOnUnresolved
  | outdent
  | indent
  | escapeXml
  | encoding
  | keepGoing
  | check
  | quote
  | format
  | verbose
  deriving DecidableEq, Repr

namespace Switch

/-- All switches, in the order in which they are documented. -/
def all : List Switch :=
  [help, baseDir, outputDir, includes, excludes, recursive, maxDepth, failOnUnresolved, outdent, indent, escapeXml, encoding,
    keepGoing, check, quote, format, verbose]

/-- The ways to write a switch, the short one first. -/
def spellings : Switch → List String
  | help => ["-h", "--help"]
  | baseDir => ["-b", "--base-dir"]
  | outputDir => ["-o", "--output-dir"]
  | includes => ["--include"]
  | excludes => ["--exclude"]
  | recursive => ["-r", "--recursive"]
  | maxDepth => ["--max-depth"]
  | failOnUnresolved => ["--fail-on-unresolved"]
  | outdent => ["--outdent"]
  | indent => ["--indent"]
  | escapeXml => ["--escape-xml"]
  | encoding => ["--encoding"]
  | keepGoing => ["-k", "--keep-going"]
  | check => ["--check"]
  | quote => ["-q", "--quote"]
  | format => ["--format"]
  | verbose => ["-v", "--verbose"]

def takesValue : Switch → Bool
  | baseDir | outputDir | includes | excludes | maxDepth | indent | encoding | quote | format => true
  | help | recursive | failOnUnresolved | outdent | escapeXml | keepGoing | check | verbose => false

def name (s : Switch) : String := "/".intercalate s.spellings

def table : List (Text × Switch) := all.flatMap fun s => s.spellings.map fun spelling => (spelling.toList, s)

def ofSpelling? (spelling : Text) : Option Switch := table.lookup spelling

end Switch

inductive UsageError where
  | ambiguous (written : Text) (candidates : List Text)
  | missingValue (s : Switch)
  | unwantedValue (s : Switch) (value : Text)
  | notANumber (s : Switch) (value : Text)
  | unknownFormat (value : Text)
  | unrecognized (arguments : List Text)
  deriving DecidableEq, Repr

/-- Texts in a row, with `separator` between neighbours. -/
def listed (separator : String) (items : List Text) : String := separator.intercalate (items.map String.ofList)

def UsageError.message : UsageError → String
  | .ambiguous written candidates =>
    let choice := listed ", " candidates
    s!"ambiguous option: {String.ofList written} could match {choice}"
  | .missingValue s => s!"argument {s.name}: expected one argument"
  | .unwantedValue s value => s!"argument {s.name}: ignored explicit argument {String.ofList (Text.quoted value)}"
  | .notANumber s value => s!"argument {s.name}: invalid int value: {String.ofList (Text.quoted value)}"
  | .unknownFormat value =>
    s!"argument {Switch.format.name}: invalid choice: {String.ofList (Text.quoted value)} (choose from 'plain', 'rich', 'json')"
  | .unrecognized arguments =>
    let rest := listed " " arguments
    s!"unrecognized arguments: {rest}"

end Quotation.Command
