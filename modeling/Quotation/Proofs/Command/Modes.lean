import Quotation.Command.Run
import Quotation.Proofs.Resolution.Outcome

/-!
# What a command line comes to

A command line resolves files if it is in order, names a base directory that is there, asks for nothing else and names some files (`Resolves`). All others leave the tree alone, however they end (`run_cases`); one that gives a text to quote prints it with its markers resolved or fails (`run_quote`). Whether there is such a text is told from the text itself, so the empty one counts as none and the command resolves files instead.
-/

namespace Quotation.Command

variable {t : Tree} {arguments : List Text} {options : Options} {config : Config} {base : Path} {files : List Path}

/-! ### Outcomes -/

@[simp] theorem Outcome.tree_withLog (options : Options) (log : List LogRecord) (outcome : Outcome) :
    (outcome.withLog options log).tree = outcome.tree := by
  rw [withLog]
  cases options.format <;> rfl

@[simp] theorem Outcome.output_withLog (options : Options) (log : List LogRecord) (outcome : Outcome) :
    (outcome.withLog options log).output = outcome.output := by
  rw [withLog]
  cases options.format <;> rfl

@[simp] theorem Outcome.exit_withLog (options : Options) (log : List LogRecord) (outcome : Outcome) :
    (outcome.withLog options log).exit = outcome.exit := by
  rw [withLog]
  cases options.format <;> rfl

@[simp] theorem Outcome.tree_ofFailure (t : Tree) (advice : String) (failure : Failure) :
    (ofFailure t advice failure).tree = t := by
  cases failure <;> rfl

theorem tree_runQuote (text : Text) : (runQuote t options config base text).tree = t := by
  rw [runQuote, Outcome.tree_withLog]
  cases (resolveText t config base text).outcome with
  | ok quote => rfl
  | error failure => exact Outcome.tree_ofFailure t "" failure

theorem tree_runCheck : (runCheck t options config base files).tree = t := by
  rw [runCheck]
  split
  · rfl
  · dsimp only
    split <;> rfl

theorem tree_runResolve : (runResolve t options config base files).tree = (resolveFiles config base t files).tree := by
  rw [runResolve]
  dsimp only
  rw [Outcome.tree_withLog]
  split
  · exact Outcome.tree_ofFailure _ _ _
  · split <;> rfl

/-! ### Resolving files -/

structure Resolves (t : Tree) (arguments : List Text) (options : Options) (config : Config) (base : Path) (files : List Path) :
    Prop where
  parsed : parse arguments = .ok options
  configured : configOf options = .ok config
  based : ∃ written, options.baseDir = some written ∧ base = Path.ofText written
  isDir : t.isDir base = .ok true
  unquoted : options.quote = none ∨ options.quote = some []
  collected : collect t (searchOf options config base) options.paths = .ok files
  some_files : files ≠ []
  unchecked : options.check = false

theorem withFiles_cases (t : Tree) (search : Search) (operands : List Text) (work : List Path → Outcome) :
    (withFiles t search operands work).tree = t ∨
      ∃ files, collect t search operands = .ok files ∧ files ≠ [] ∧ withFiles t search operands work = work files := by
  rw [withFiles]
  split
  · exact .inl rfl
  · exact .inl rfl
  · exact .inl rfl
  · next files hne hfiles => exact .inr ⟨files, hfiles, hne, rfl⟩

theorem runInBase_cases (t : Tree) (options : Options) (config : Config) (base : Path) :
    (runInBase t options config base).tree = t ∨
      ∃ files, collect t (searchOf options config base) options.paths = .ok files ∧ files ≠ [] ∧
        (options.quote = none ∨ options.quote = some []) ∧ options.check = false ∧
        runInBase t options config base = runResolve t options config base files := by
  rw [runInBase]
  split
  · exact .inl (tree_runQuote _)
  · next hquote =>
    have hunquoted : options.quote = none ∨ options.quote = some [] := by
      cases hoption : options.quote with
      | none => exact .inl rfl
      | some text =>
        cases text with
        | nil => exact .inr rfl
        | cons c cs => exact absurd hoption (hquote c cs)
    obtain htree | ⟨files, hfiles, hne, hwork⟩ := withFiles_cases t (searchOf options config base) options.paths
      (if options.check then runCheck t options config base else runResolve t options config base)
    · exact .inl htree
    · cases hcheck : options.check with
      | true =>
        rw [hcheck] at hwork
        exact .inl ((congrArg Outcome.tree hwork).trans tree_runCheck)
      | false =>
        rw [hcheck] at hwork
        exact .inr ⟨files, hfiles, hne, hunquoted, rfl, hwork⟩

/-- A command line that does not resolve files leaves the tree alone. -/
theorem run_cases (t : Tree) (arguments : List Text) :
    (run t arguments).tree = t ∨
      ∃ options config base files, Resolves t arguments options config base files ∧
        run t arguments = runResolve t options config base files := by
  rw [run]
  split
  · exact .inl rfl
  · exact .inl rfl
  · next options hparsed =>
    split
    · exact .inl rfl
    · exact .inl rfl
    · next config hconfigured =>
      rw [runConfigured]
      split
      · exact .inl rfl
      · next written hwritten =>
        dsimp only
        split
        · exact .inl rfl
        · exact .inl rfl
        · next hdir =>
          obtain htree | ⟨files, hfiles, hne, hunquoted, hcheck, hrun⟩ := runInBase_cases t options config (Path.ofText written)
          · exact .inl htree
          · exact .inr ⟨options, config, _, files, ⟨hparsed, hconfigured, ⟨written, hwritten, rfl⟩, hdir, hunquoted, hfiles, hne,
              hcheck⟩, hrun⟩

/-- A command line that is in order and names a base directory that is there works on files, if it is not given a text to quote. -/
theorem run_eq_withFiles {written : Text} (hparsed : parse arguments = .ok options) (hconfigured : configOf options = .ok config)
    (hwritten : options.baseDir = some written) (hdir : t.isDir (Path.ofText written) = .ok true)
    (hunquoted : options.quote = none ∨ options.quote = some []) :
    run t arguments = withFiles t (searchOf options config (Path.ofText written)) options.paths
      (if options.check then runCheck t options config (Path.ofText written)
        else runResolve t options config (Path.ofText written)) := by
  rw [run, hparsed]
  dsimp only
  rw [hconfigured]
  dsimp only
  rw [runConfigured, hwritten]
  dsimp only
  rw [hdir]
  dsimp only
  obtain hnone | hempty := hunquoted
  · simp only [runInBase, hnone]
  · simp only [runInBase, hempty]

theorem Resolves.run_eq (h : Resolves t arguments options config base files) :
    run t arguments = runResolve t options config base files := by
  obtain ⟨written, hwritten, rfl⟩ := h.based
  rw [run_eq_withFiles h.parsed h.configured hwritten h.isDir h.unquoted, withFiles, h.collected, h.unchecked]
  obtain ⟨first, rest, rfl⟩ := List.exists_cons_of_ne_nil h.some_files
  rfl

theorem Resolves.unique {options' : Options} {config' : Config} {base' : Path} {files' : List Path}
    (h : Resolves t arguments options config base files) (h' : Resolves t arguments options' config' base' files') :
    options' = options ∧ config' = config ∧ base' = base ∧ files' = files := by
  obtain rfl := Except.ok.inj (h.parsed.symm.trans h'.parsed)
  obtain rfl := Except.ok.inj (h.configured.symm.trans h'.configured)
  obtain ⟨written, hwritten, rfl⟩ := h.based
  obtain ⟨written', hwritten', rfl⟩ := h'.based
  obtain rfl := Option.some.inj (hwritten.symm.trans hwritten')
  obtain rfl := Except.ok.inj (h.collected.symm.trans h'.collected)
  exact ⟨rfl, rfl, rfl, rfl⟩

/-! ### Quoting -/

/-- The text has been printed with its markers resolved. -/
def PrintsQuote (t : Tree) (options : Options) (text : Text) (outcome : Outcome) : Prop :=
  ∃ config written quote, configOf options = .ok config ∧ options.baseDir = some written ∧
    (resolveText t config (Path.ofText written) text).outcome = .ok quote ∧ outcome.output = String.ofList quote ++ "\n" ∧
    outcome.exit = .ok 0

/-- Nothing has been printed as output, and the exit code tells of it. -/
def Fails (outcome : Outcome) : Prop := outcome.output = "" ∧ outcome.exit ≠ .ok 0

theorem fails_ofError (t : Tree) {code : Nat} (hcode : code ≠ 0) (message : String) : Fails (Outcome.ofError t code message) := by
  refine ⟨rfl, fun hexit => hcode ?_⟩
  exact Except.ok.inj hexit

theorem fails_ofFailure (t : Tree) (advice : String) (failure : Failure) : Fails (Outcome.ofFailure t advice failure) := by
  cases failure with
  | citation complaint => exact ⟨rfl, by simp [Outcome.ofFailure]⟩
  | fault fault => exact ⟨rfl, by simp [Outcome.ofFailure]⟩

theorem runQuote_cases {text : Text} {written : Text} (hconfig : configOf options = .ok config)
    (hwritten : options.baseDir = some written) :
    PrintsQuote t options text (runQuote t options config (Path.ofText written) text) ∨
      Fails (runQuote t options config (Path.ofText written) text) := by
  rw [runQuote]
  cases hquote : (resolveText t config (Path.ofText written) text).outcome with
  | ok quote => exact .inl ⟨config, written, quote, hconfig, hwritten, hquote, by simp, by simp⟩
  | error failure =>
    refine .inr ?_
    rw [Fails, Outcome.output_withLog, Outcome.exit_withLog]
    exact fails_ofFailure t "" failure

theorem runConfigured_quote {text : Text} (hconfig : configOf options = .ok config) (hquote : options.quote = some text)
    (htext : text ≠ []) :
    PrintsQuote t options text (runConfigured t options config) ∨ Fails (runConfigured t options config) := by
  rw [runConfigured]
  split
  · exact .inr ⟨rfl, by simp⟩
  · next written hwritten =>
    dsimp only
    split
    · exact .inr ⟨rfl, by simp⟩
    · exact .inr (fails_ofError t (by decide) _)
    · obtain ⟨c, cs, rfl⟩ := List.exists_cons_of_ne_nil htext
      rw [runInBase, hquote]
      exact runQuote_cases hconfig hwritten

theorem runConfigured_quote_nil (hquote : options.quote = some []) :
    runConfigured t options config = runConfigured t { options with quote := none } config := by
  have hinBase : ∀ base, runInBase t options config base = runInBase t { options with quote := none } config base := by
    intro base
    rw [runInBase, runInBase, hquote]
    rfl
  simp only [runConfigured, hinBase]

/-- A command that is given a text to quote leaves the tree alone and prints the text with its markers resolved, or fails. The empty text counts as none. -/
theorem run_quote (t : Tree) (arguments : List Text) :
    (∀ stop, parse arguments = .error stop → (run t arguments).tree = t) ∧
      ∀ options text, parse arguments = .ok options → options.quote = some text →
        (text ≠ [] → (run t arguments).tree = t ∧ (PrintsQuote t options text (run t arguments) ∨ Fails (run t arguments))) ∧
        (text = [] → ∀ config, configOf options = .ok config →
          run t arguments = runConfigured t { options with quote := none } config) := by
  refine ⟨fun stop hstop => ?_, fun options text hparsed hquote => ⟨fun htext => ⟨?_, ?_⟩, ?_⟩⟩
  · rw [run, hstop]
    cases stop <;> rfl
  · obtain htree | ⟨others, config, base, files, hresolves, -⟩ := run_cases t arguments
    · exact htree
    · obtain rfl := Except.ok.inj (hparsed.symm.trans hresolves.parsed)
      obtain hnone | hempty := hresolves.unquoted
      · cases hnone.symm.trans hquote
      · exact absurd (Option.some.inj (hquote.symm.trans hempty)) htext
  · rw [run, hparsed]
    dsimp only
    cases hconfig : configOf options with
    | error e =>
      cases e with
      | fault fault => exact .inr ⟨rfl, by simp⟩
      | negative s => exact .inr (fails_ofError t (by decide) _)
    | ok config => exact runConfigured_quote hconfig hquote htext
  · rintro rfl config hconfig
    rw [run, hparsed]
    dsimp only
    rw [hconfig]
    exact runConfigured_quote_nil hquote

def quotingTree : Tree :=
  ⟨[], .file "d".toList (Charset.Utf8.encode "[e]\n".toList) (.file "e".toList (Charset.Utf8.encode "y\n".toList) .empty)⟩

theorem run_quote_quotingTree :
    parse ["-q".toList, "[e]".toList] = .ok { quote := some "[e]".toList } ∧
      (run quotingTree ["-q".toList, "[e]".toList]).tree = quotingTree ∧
      PrintsQuote quotingTree { quote := some "[e]".toList } "[e]".toList (run quotingTree ["-q".toList, "[e]".toList]) := by
  have hparsed : parse ["-q".toList, "[e]".toList] = .ok { quote := some "[e]".toList } := by decide +kernel
  obtain ⟨-, hquote⟩ := run_quote quotingTree ["-q".toList, "[e]".toList]
  obtain ⟨htree, hprints⟩ := (hquote _ "[e]".toList hparsed rfl).1 (by decide)
  have houtput : (run quotingTree ["-q".toList, "[e]".toList]).output ≠ "" := by decide +kernel
  exact ⟨hparsed, htree, hprints.resolve_right fun hfails => houtput hfails.1⟩

/-- The command resolves `d` in place, although it is given a text to quote. -/
theorem exists_written_by_quote :
    ∃ arguments options, parse arguments = .ok options ∧ options.quote = some [] ∧
      (run quotingTree arguments).tree ≠ quotingTree ∧
      (run quotingTree arguments).tree.get? ["d".toList] = some (.file (Charset.Utf8.encode "y\n".toList)) := by
  refine ⟨["--quote".toList, [], "d".toList], { paths := ["d".toList], quote := some [] }, ?_, rfl, ?_, ?_⟩
  · decide +kernel
  · decide +kernel
  · decide +kernel

end Quotation.Command
