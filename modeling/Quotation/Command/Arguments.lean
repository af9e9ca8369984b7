import Quotation.Command.Switch
import Quotation.Path
import Quotation.Text.Numeral

/-!
# Reading the command line

First every argument is recognised by itself: as a switch, possibly with a value joined to it, or as an operand. Long switches may be shortened as long as only one fits, and short ones may share a dash. Then switches take effect from left to right, and the first run of operands gives the paths; whatever finds no use is an error in the end. After a double dash everything is an operand; a double dash that is joined to a switch leaves it without a value.
-/

namespace Quotation.Command

inductive Format where
  | plain
  | rich
  | json
  deriving DecidableEq, Repr

/-- The meaning of a command line. A setting is `none` where its switch came without a value. -/
structure Options where
  paths : List Text := []
  baseDir : Option Text := some Path.stay
  outputDir : Option Text := none
  includes : List (Option Text) := []
  excludes : List (Option Text) := []
  recursive : Bool := false
  maxDepth : Option Int := some 10
  failOnUnresolved : Bool := false
  outdent : Bool := false
  indent : Option Int := some 0
  escapeXml : Bool := false
  encoding : Option Text := some "utf-8".toList
  keepGoing : Bool := false
  check : Bool := false
  quote : Option Text := none
  format : Format := .plain
  verbose : Bool := false
  deriving DecidableEq, Repr

/-! ### Recognising one argument -/

/-- An argument that is written like a switch. -/
structure Occurrence where
  /-- The switch, unless there is none of that spelling. -/
  switch : Option Switch
  /-- Whether the switch is spelled with one dash. -/
  short : Bool
  /-- What is joined to the spelling. -/
  joined : Option Text
  deriving DecidableEq, Repr

/-- Whether the text is a minus sign before a decimal number. A line feed at the end is overlooked. -/
def isNegativeNumber (t : Text) : Bool :=
  let t := if t.getLast? = some '\n' then t.dropLast else t
  let isDecimal := fun c => (Text.decimalValue? c).isSome
  match t with
  | '-' :: number =>
    match Text.cut '.' number with
    | some (whole, fraction) => whole.all isDecimal && fraction ≠ [] && fraction.all isDecimal
    | none => number ≠ [] && number.all isDecimal
  | _ => false

def isLong (t : Text) : Bool := ['-', '-'].isPrefixOf t

/-- The spelling and what an equals sign joins to it. -/
def cutJoined (t : Text) : Text × Option Text :=
  match Text.cut '=' t with
  | some (spelling, value) => (spelling, some value)
  | none => (t, none)

/-- The ways to read a text of two or more characters as a spelling that is not written in full. -/
def readings (t : Text) : List (Text × Occurrence) :=
  if isLong t then
    let (start, joined) := cutJoined t
    (Switch.table.filter fun (spelling, _) => start.isPrefixOf spelling).map fun (spelling, s) =>
      (spelling, ⟨some s, false, joined⟩)
  else
    (Switch.table.filter fun (spelling, _) => spelling = t.take 2).map fun (spelling, s) =>
      (spelling, ⟨some s, true, some (t.drop 2)⟩)

/-- An argument as a switch, or nothing for an operand. -/
def recognise (t : Text) : Except UsageError (Option Occurrence) :=
  if t.head? ≠ some '-' then .ok none
  else match Switch.ofSpelling? t with
    | some s => .ok (some ⟨some s, !isLong t, none⟩)
    | none =>
      if t.length = 1 then .ok none
      else
        let (spelling, joined) := cutJoined t
        match joined.bind fun _ => Switch.ofSpelling? spelling with
        | some s => .ok (some ⟨some s, !isLong t, joined⟩)
        | none =>
          match readings t with
          | [(_, occurrence)] => .ok (some occurrence)
          | [] => .ok (if isNegativeNumber t || ' ' ∈ t then none else some ⟨none, !isLong t, none⟩)
          | several => .error (.ambiguous t (several.map (·.1)))

/-- An argument with what it was recognised as. -/
inductive Token where
  | operand (written : Text)
  /-- The double dash, after which there are operands only. -/
  | divider
  | occurrence (written : Text) (o : Occurrence)
  deriving DecidableEq, Repr

def tokens : List Text → Except UsageError (List Token)
  | [] => .ok []
  | t :: rest =>
    if t = ['-', '-'] then .ok (.divider :: rest.map .operand)
    else do
      let recognised ← recognise t
      let others ← tokens rest
      return (match recognised with | some o => .occurrence t o | none => .operand t) :: others

/-! ### What switches do -/

/-- A switch that is ready to take effect, with its value if it has one. -/
structure Setting where
  switch : Switch
  value : Option Text := none
  deriving DecidableEq, Repr

/-- What an occurrence stands for: settings that are complete, and a last switch whose value, if it takes one, is still to come. -/
structure Cluster where
  settings : List Setting := []
  pending : Option Switch := none
  deriving DecidableEq, Repr

/-- The value that a text joined to a switch stands for. -/
def joinedValue (t : Text) : Option Text := if t = ['-', '-'] then none else some t

/-- Takes apart the characters joined to a switch. A switch with a value takes all of them; after one without, with a single dash, the next character is a short switch of its own. -/
def cluster (s : Switch) (short : Bool) : Text → Except UsageError Cluster
  | [] => if s.takesValue then .ok { settings := [⟨s, some []⟩] } else .error (.unwantedValue s [])
  | c :: cs =>
    if s.takesValue then .ok { settings := [⟨s, joinedValue (c :: cs)⟩] }
    else match if short then Switch.ofSpelling? ['-', c] else none with
      | none => .error (.unwantedValue s (c :: cs))
      | some next =>
        let others := if cs.isEmpty then .ok { pending := some next } else cluster next true cs
        others.map fun others => { others with settings := { switch := s } :: others.settings }

def number (setting : Setting) : Except UsageError (Option Int) :=
  setting.value.mapM fun value =>
    match Text.parseInt? value with
    | some n => .ok n
    | none => .error (.notANumber setting.switch value)

def formatOf : Option Text → Except UsageError Format
  | none => .ok .plain
  | some value =>
    if value = "plain".toList then .ok .plain
    else if value = "rich".toList then .ok .rich
    else if value = "json".toList then .ok .json
    else .error (.unknownFormat value)

/-- Why reading the command line ends early. -/
inductive Stop where
  | help
  | usage (e : UsageError)
  deriving DecidableEq, Repr

def Options.set (options : Options) (setting : Setting) : Except Stop Options :=
  let value := setting.value
  match setting.switch with
  | .help => .error .help
  | .baseDir => .ok { options with baseDir := value }
  | .outputDir => .ok { options with outputDir := value }
  | .includes => .ok { options with includes := options.includes ++ [value] }
  | .excludes => .ok { options with excludes := options.excludes ++ [value] }
  | .recursive => .ok { options with recursive := true }
  | .maxDepth => ((number setting).map fun n => { options with maxDepth := n }).mapError .usage
  | .failOnUnresolved => .ok { options with failOnUnresolved := true }
  | .outdent => .ok { options with outdent := true }
  | .indent => ((number setting).map fun n => { options with indent := n }).mapError .usage
  | .escapeXml => .ok { options with escapeXml := true }
  | .encoding => .ok { options with encoding := value }
  | .keepGoing => .ok { options with keepGoing := true }
  | .check => .ok { options with check := true }
  | .quote => .ok { options with quote := value }
  | .format => ((formatOf value).map fun f => { options with format := f }).mapError .usage
  | .verbose => .ok { options with verbose := true }

/-! ### Reading all arguments -/

/-- Whether the run of operands that gives the paths is still to come, being read, or over. -/
inductive Stage where
  | before
  | within
  | after
  deriving DecidableEq, Repr

/-- How far reading has come. -/
structure Progress where
  options : Options := {}
  stage : Stage := .before
  /-- Arguments that have found no use. -/
  unused : List Text := []
  deriving DecidableEq, Repr

def Progress.setAll (progress : Progress) (settings : List Setting) : Except Stop Progress := do
  return { progress with options := ← settings.foldlM Options.set progress.options }

/-- A switch ends a run of operands. -/
def Progress.endRun (progress : Progress) : Progress :=
  match progress.stage with
  | .within => { progress with stage := .after }
  | _ => progress

/-- An operand is a path in the first run and has no use in a later one. -/
def Progress.operand (progress : Progress) (written : Text) : Progress :=
  match progress.stage with
  | .after => { progress with unused := progress.unused ++ [written] }
  | _ => { progress with stage := .within, options := { progress.options with paths := progress.options.paths ++ [written] } }

/-- The divider belongs to the run around it, but is no path. -/
def Progress.divider (progress : Progress) : Progress :=
  match progress.stage with
  | .after => { progress with unused := progress.unused ++ [['-', '-']] }
  | _ => { progress with stage := .within }

/-- What an occurrence of a switch stands for. -/
def Occurrence.cluster (o : Occurrence) (s : Switch) : Except UsageError Cluster :=
  match o.joined with
  | some value => Command.cluster s o.short value
  | none => .ok { pending := some s }

def readTokens (progress : Progress) : List Token → Except Stop Progress
  | [] => .ok progress
  | .operand written :: rest => readTokens (progress.operand written) rest
  | .divider :: rest => readTokens progress.divider rest
  | .occurrence written o :: rest => do
    let progress := progress.endRun
    match o.switch with
    | none => readTokens { progress with unused := progress.unused ++ [written] } rest
    | some s =>
      let found ← (o.cluster s).mapError .usage
      match found.pending with
      | none => readTokens (← progress.setAll found.settings) rest
      | some s =>
        if s.takesValue then
          match rest with
          | .operand value :: rest => readTokens (← progress.setAll (found.settings ++ [⟨s, some value⟩])) rest
          | _ => throw (.usage (.missingValue s))
        else readTokens (← progress.setAll (found.settings ++ [{ switch := s }])) rest

/-- The options that a command line stands for. Releases of the option parser disagree about `-o--`, `-k=v`, `-kvo=` and `-kx --help`: these are read as in the older 3.11 releases, from which 3.11.10 and 3.12.3 differ. -/
def parse (arguments : List Text) : Except Stop Options := do
  let progress ← readTokens {} (← (tokens arguments).mapError .usage)
  if progress.unused.isEmpty then return progress.options else throw (.usage (.unrecognized progress.unused))

end Quotation.Command
