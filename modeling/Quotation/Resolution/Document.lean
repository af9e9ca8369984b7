import Quotation.Config
import Quotation.Resolution.Reading
import Quotation.Resolution.Traced
import Quotation.Segment

/-!
# Resolving a text

Every marker of a text that cites an existing file gives way to the quote, laid out as configured; the others stay as they are. When quotes are resolved in turn, each level of nesting takes one step off a budget, so that citations running in a circle come to an end. The three ways in, by file, by text and by single citation, share `resolveLine` and `resolveReading`.
-/

namespace Quotation

/-- How to go on with a quote that has markers of its own: given the marker it replaces, its surroundings and its text. -/
abbrev Descent := Text → Context → Text → Traced Text

/-- A marker that has been read gives way to its quote or stays. -/
def resolveReading (t : Tree) (config : Config) (descend : Descent) (ctx : Context) (marker : Text) : Reading → Traced Text
  | .prose => do
    Traced.note (.left marker)
    return marker
  | .faulty token reason => Traced.fail (.malformed token reason)
  | .dangling c => do
    if config.failOnUnresolved then Traced.fail (.unresolved marker (Path.ofText c.ref))
    else
      Traced.note (.unresolved marker)
      return marker
  | .found c target => do
    Traced.note (.cited marker target)
    let quote ← Traced.lift (t.excerpt config.encoding c target)
    let resolved ←
      if ctx.recursive && Segment.hasMarkers quote then descend marker (ctx.nested target) quote else pure quote
    Traced.lift ((config.layOut resolved).mapError .fault)

def resolveSegment (t : Tree) (config : Config) (descend : Descent) (ctx : Context) : Segment → Traced Text
  | .text content => pure content
  | .marker body => do
    let reading ← Traced.lift ((Reading.ofBody t ctx body).mapError .fault)
    resolveReading t config descend ctx (Segment.marker body).toText reading

def resolveLine (t : Tree) (config : Config) (descend : Descent) (ctx : Context) (line : Text) : Traced Text :=
  List.flatten <$> (Segment.split line).mapM (resolveSegment t config descend ctx)

def resolveLines (t : Tree) (config : Config) (descend : Descent) (ctx : Context) (text : Text) : Traced Text :=
  Text.join '\n' <$> (Text.splitOn '\n' text).mapM (resolveLine t config descend ctx)

/-- Resolves the markers of a quote, as long as the budget of levels lasts. -/
def resolveQuote (t : Tree) (config : Config) : Nat → Descent
  | 0, marker, _, _ => Traced.fail (.tooDeep marker config.maxDepth)
  | budget + 1, _, ctx, quote => do
    Traced.note (.entered ctx.citingFile ctx.depth)
    resolveLines t config (resolveQuote t config budget) ctx quote

/-- Resolves quotes down to the depth that the configuration allows. -/
def resolveNested (t : Tree) (config : Config) : Descent := resolveQuote t config config.maxDepth.toNat

/-- A text with its markers resolved as if it stood in the citing file. -/
def resolveText (t : Tree) (config : Config) (citing : Path) (text : Text) : Traced Text := do
  let ctx ← Traced.lift ((Context.ofCiting t config.recursive citing).mapError .fault)
  resolveLines t config (resolveNested t config) ctx text

/-- The quote of a single citation, or its marker if the file is missing. -/
def getQuote (t : Tree) (config : Config) (citing : Path) (c : Citation) : Traced Text := do
  let ctx ← Traced.lift ((Context.ofCiting t config.recursive citing).mapError .fault)
  let reading ← Traced.lift ((Reading.ofCitation t ctx c).mapError .fault)
  resolveReading t config (resolveNested t config) ctx c.marker reading

/-- A resolved file, before anything is written. -/
structure Resolved where
  source : Path
  lines : List Text
  /-- Whether the lines differ from those of the source. -/
  changed : Bool
  /-- How many citations were quoted, nested ones included. -/
  citations : Nat
  /-- The markers of missing files. -/
  unresolved : List Text
  deriving DecidableEq, Repr

/-- The resolved lines as one text. -/
def Resolved.text (resolved : Resolved) : Text := Text.join '\n' resolved.lines

def citationCount (events : List Event) : Nat :=
  events.countP fun | .cited .. => true | _ => false

def unresolvedMarkers (events : List Event) : List Text :=
  events.filterMap fun | .unresolved marker => some marker | _ => none

/-- The lines of a file before and after resolving. -/
def resolveSource (t : Tree) (config : Config) (base source : Path) : Traced (List Text × List Text) := do
  let lines ← Traced.lift (t.citedLines config.encoding source)
  let ctx : Context := { baseDir := base, citingFile := source, recursive := config.recursive }
  let resolved ← lines.mapM (resolveLine t config (resolveNested t config) ctx)
  return (lines, resolved.flatMap (Text.splitOn '\n'))

def Failure.inFile (file : Path) : Failure → Failure
  | .citation c => .citation (c.inFile file)
  | .fault f => .fault f

/-- A file with its markers resolved; `file` is read in the directory `base`. -/
def resolveFile (t : Tree) (config : Config) (base file : Path) : Traced Resolved :=
  let source := base.within file
  let body := resolveSource t config base source
  let summary := fun (before, after) =>
    { source, lines := after, changed := after ≠ before, citations := citationCount body.events,
      unresolved := unresolvedMarkers body.events }
  ⟨body.events, (body.outcome.map summary).mapError (Failure.inFile source)⟩

end Quotation
