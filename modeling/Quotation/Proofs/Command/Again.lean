import Quotation.Proofs.Batch.Again
import Quotation.Proofs.Command.Output

/-!
# The same command again

A command that resolves the files of the base directory to an output directory of its own can be given again: it ends and prints the same and changes nothing that shows (`run_again`). What the first command has put out is not taken for input, even where the output directory lies inside the base directory, as long as it is near enough to be searched: the search gives up at a path that is too long for the system (`exists_path_too_long_again`).
-/

namespace Quotation.Command

variable {t v w : Tree} {arguments : List Text} {options : Options} {config : Config} {base out p : Path} {files : List Path} {search : Search}

/-! ### The same outcome -/

/-- A command that is given again prints and ends the same and changes nothing that shows. -/
structure Outcome.Repeats (first again : Outcome) : Prop where
  view : Tree.SameView first.tree again.tree
  output : again.output = first.output
  errors : again.errors = first.errors
  shown : again.shown = first.shown
  exit : again.exit = first.exit

/-- What a command prints, and how it ends, is told from how its run ended and from what it logged. -/
theorem repeats_of_resolveFiles (hview : Tree.SameView (resolveFiles config base t files).tree w)
    (h : (resolveFiles config base t files).Repeats w (resolveFiles config base w files)) :
    (runResolve t options config base files).Repeats (runResolve w options config base files) := by
  have htree : Tree.SameView (runResolve t options config base files).tree (runResolve w options config base files).tree := by
    rw [tree_runResolve, tree_runResolve]
    exact hview.trans h.view
  refine ⟨htree, ?_, ?_, ?_, ?_⟩
  all_goals
    rw [runResolve, runResolve, h.log, h.outcome, Outcome.withLog, Outcome.withLog]
    dsimp only
    cases (resolveFiles config base t files).outcome with
    | error failure => cases failure <;> cases options.format <;> rfl
    | ok run => cases options.format <;> rfl

theorem exit_runResolve {run : Run} (h : (resolveFiles config base t files).outcome = .ok run) :
    (runResolve t options config base files).exit = .ok (if run.ok then 0 else 2) := by
  rw [runResolve, Outcome.exit_withLog, h]
  cases options.format <;> rfl

/-! ### The same input -/

theorem eq_of_mapM_resolve {skip : Option Place} (h : (some out).mapM t.resolve = .ok skip) : skip = some (out.normalize t.cwd) :=
  (Tree.mapM_resolve_eq_ok_iff.1 h).2

theorem exists_candidate_of_mem_collect (hbase : t.isDir search.base = .ok true) (hskip : search.skipDir = some out)
    (h : collect t search [] = .ok files) (hp : p ∈ files) :
    ∃ parts, p = ⟨.here, parts⟩ ∧
      parts ∈ Discovery.candidates t (some (out.normalize t.cwd)) (search.base.normalize t.cwd) := by
  obtain ⟨found, hfound, rfl⟩ := (collect_nil_eq_ok_iff hbase).1 h
  obtain ⟨file, hfile, rfl⟩ := List.mem_map.1 (List.mem_eraseDups.1 hp)
  obtain ⟨skip, place, parts, hresolve, hreach, rfl, hparts⟩ := Discovery.file_of_mem_discover hbase hfound hfile
  obtain rfl := Tree.normalize_of_reach hreach
  obtain rfl := eq_of_mapM_resolve (hskip ▸ hresolve)
  exact ⟨parts, Path.within_of_here _ _, hparts⟩

theorem outside_of_mem_collect (hbase : t.isDir search.base = .ok true) (hskip : search.skipDir = some out)
    (hne : out.normalize t.cwd ≠ search.base.normalize t.cwd) (h : collect t search [] = .ok files) (hp : p ∈ files) :
    ¬ out.normalize t.cwd <+: search.base.normalize t.cwd ++ p.parts ∨
      out.normalize t.cwd = search.base.normalize t.cwd ++ p.parts := by
  obtain ⟨parts, rfl, hparts⟩ := exists_candidate_of_mem_collect hbase hskip h hp
  exact (Discovery.isSkipped_eq_false_iff hne).1 (Discovery.mem_candidates_iff.1 hparts).2.2

theorem not_isPrefix_of_collect (hbase : t.isDir search.base = .ok true) (hskip : search.skipDir = some out)
    (hne : out.normalize t.cwd ≠ search.base.normalize t.cwd) (h : collect t search [] = .ok files) (hsome : files ≠ []) :
    ¬ out.normalize t.cwd <+: search.base.normalize t.cwd := by
  obtain ⟨p, rest, rfl⟩ := List.exists_cons_of_ne_nil hsome
  intro hinside
  obtain houtside | hsame := outside_of_mem_collect hbase hskip hne h List.mem_cons_self
  · exact houtside (hinside.trans (List.prefix_append _ p.parts))
  · exact hne (hinside.eq_of_length_le (by rw [hsame, List.length_append]; exact Nat.le_add_right _ _))

/-- Once output has been written, a search finds the same files as before, as long as it comes to its end. -/
theorem collect_again (hbase : t.isDir search.base = .ok true) (hskip : search.skipDir = some out)
    (hne : out.normalize t.cwd ≠ search.base.normalize t.cwd) (hv : Tree.WrittenInto (out.normalize t.cwd) t v)
    (hshort : search.base.normalize t.cwd <+: out.normalize t.cwd →
      Discovery.allShort v search.base (search.base.normalize t.cwd) = true)
    (h : collect t search [] = .ok files) (hsome : files ≠ []) : collect v search [] = .ok files := by
  have hbase' := Tree.isDir_of_keepsDirs hv.keepsDirs hbase
  have hinside := not_isPrefix_of_collect hbase hskip hne h hsome
  obtain ⟨found, hfound, rfl⟩ := (collect_nil_eq_ok_iff hbase).1 h
  refine (collect_nil_eq_ok_iff hbase').2 ⟨found, ?_, rfl⟩
  obtain ⟨hreach, -⟩ := Tree.exists_reach_of_isDir hbase
  refine Discovery.discover_eq_of_mem_iff hbase hfound hbase' hv.keepsDirs.cwd
    ((Tree.reach_of_keepsDirs hv.keepsDirs hreach).trans hreach.symm) (fun place hplace => ?_) fun skip place hresolve hplace parts => ?_
  · obtain rfl := Tree.normalize_of_reach hplace
    by_cases hbelow : search.base.normalize t.cwd <+: out.normalize t.cwd
    · exact hshort hbelow
    · obtain ⟨-, place, -, -, hplace', hall, -⟩ := (Discovery.discover_eq_ok_iff hbase).1 hfound
      obtain rfl := Tree.normalize_of_reach hplace'
      refine Discovery.allShort_eq_true_iff.2 fun rest hroot hthere => Discovery.allShort_eq_true_iff.1 hall rest hroot ?_
      rwa [hv.outside.get? _ fun habove => ?_] at hthere
      exact (List.prefix_or_prefix_of_prefix habove (List.prefix_append _ rest)).elim hinside hbelow
  · obtain rfl := Tree.normalize_of_reach hplace
    obtain rfl := eq_of_mapM_resolve (hskip ▸ hresolve)
    rw [Discovery.mem_candidates_iff, Discovery.mem_candidates_iff, Discovery.isSkipped_eq_false_iff hne]
    refine and_congr_right fun _ => and_congr_left fun houtside => exists_congr fun content => ?_
    exact hv.file_iff houtside content

/-! ### The same command -/

/-- The options name an output directory, with room for it, that is not the base directory, and no paths. -/
structure Regenerates (t : Tree) (options : Options) (out : Path) : Prop where
  no_paths : options.paths = []
  output : ∃ c cs, options.outputDir = some (c :: cs) ∧ out = Path.ofText (c :: cs)
  differs : ∀ written, options.baseDir = some written → out.normalize t.cwd ≠ (Path.ofText written).normalize t.cwd
  room : t.HasRoom out

theorem Regenerates.outputDir_eq (h : Regenerates t options out) (hconfig : configOf options = .ok config) :
    config.outputDir = some out := by
  obtain ⟨c, cs, hwritten, rfl⟩ := h.output
  rw [outputDir_of_configOf hconfig, hwritten]
  rfl

theorem Resolves.differs (h : Resolves t arguments options config base files) (hregenerates : Regenerates t options out) :
    out.normalize t.cwd ≠ base.normalize t.cwd := by
  obtain ⟨written, hwritten, rfl⟩ := h.based
  exact hregenerates.differs written hwritten

/-- What a command takes for input is not inside its output directory. -/
theorem Resolves.standsOutside (h : Resolves t arguments options config base files) (hnames : t.PlainNames)
    (hregenerates : Regenerates t options out) (hp : p ∈ files) : StandsOutside (out.normalize t.cwd) t base p := by
  have hinput : IsInput t base p := isInput_of_mem_collect hnames h.isDir h.collected hp
  have hbase : t.isDir (searchOf options config base).base = .ok true := h.isDir
  have hcollected := h.collected
  rw [hregenerates.no_paths] at hcollected
  exact ⟨hinput.goesDown, hinput.file, outside_of_mem_collect hbase (hregenerates.outputDir_eq h.configured)
    (h.differs hregenerates) hcollected hp⟩

theorem Resolves.again (h : Resolves t arguments options config base files) (hregenerates : Regenerates t options out)
    (hv : Tree.WrittenInto (out.normalize t.cwd) t v)
    (hshort : base.normalize t.cwd <+: out.normalize t.cwd → Discovery.allShort v base (base.normalize t.cwd) = true) :
    Resolves v arguments options config base files := by
  refine { h with isDir := Tree.isDir_of_keepsDirs hv.keepsDirs h.isDir, collected := ?_ }
  have hbase : t.isDir (searchOf options config base).base = .ok true := h.isDir
  have hcollected := h.collected
  rw [hregenerates.no_paths] at hcollected ⊢
  exact collect_again hbase (hregenerates.outputDir_eq h.configured) (h.differs hregenerates) hv hshort hcollected h.some_files

theorem Resolves.repeats (h : Resolves t arguments options config base files) (hcwd : t.HasCwd) (hnames : t.PlainNames)
    (hregenerates : Regenerates t options out) (hlooks : NeverLooksInto (out.normalize t.cwd) config base t files)
    (hshort : base.normalize t.cwd <+: out.normalize t.cwd →
      Discovery.allShort (run t arguments).tree base (base.normalize t.cwd) = true) :
    Resolves (run t arguments).tree arguments options config base files ∧
      (run t arguments).Repeats (run (run t arguments).tree arguments) := by
  have hout := hregenerates.outputDir_eq h.configured
  have habove := hregenerates.room.hasAbove
  have hfiles : ∀ p ∈ files, StandsOutside (out.normalize t.cwd) t base p := fun p hp => h.standsOutside hnames hregenerates hp
  have htree : (run t arguments).tree = (resolveFiles config base t files).tree := by rw [h.run_eq, tree_runResolve]
  have hview : Tree.SameView (resolveFiles config base t files).tree (run t arguments).tree := by
    rw [htree]
    exact .refl _
  have hwritten := writtenInto_of_resolveFiles hcwd hout habove h.isDir hfiles
  rw [← htree] at hwritten
  have hagain := h.again hregenerates hwritten hshort
  have hrepeats := resolveFiles_again hcwd hout habove h.isDir (nodup_of_collect h.collected) hfiles hlooks hview
  refine ⟨hagain, ?_⟩
  rw [hagain.run_eq]
  nth_rewrite 1 [h.run_eq]
  exact repeats_of_resolveFiles hview hrepeats

/-- A command that regenerates an output directory, without looking anything up there, does the same when it is given again, and takes the same files for input: none from inside the output directory. -/
theorem run_again (hcwd : t.HasCwd) (hnames : t.PlainNames) (arguments : List Text)
    (hregenerates : ∀ options, parse arguments = .ok options → Regenerates t options out)
    (hlooks : ∀ options config base files, Resolves t arguments options config base files →
      NeverLooksInto (out.normalize t.cwd) config base t files)
    (hshort : ∀ options config base files, Resolves t arguments options config base files →
      base.normalize t.cwd <+: out.normalize t.cwd →
      Discovery.allShort (run t arguments).tree base (base.normalize t.cwd) = true) :
    (run t arguments).Repeats (run (run t arguments).tree arguments) ∧
      ∀ options config base files, Resolves t arguments options config base files →
        Resolves (run t arguments).tree arguments options config base files ∧
          ∀ p ∈ files, StandsOutside (out.normalize t.cwd) t base p := by
  have hresolves : ∀ options config base files, Resolves t arguments options config base files →
      Resolves (run t arguments).tree arguments options config base files ∧
        (run t arguments).Repeats (run (run t arguments).tree arguments) := by
    intro options config base files h
    exact h.repeats hcwd hnames (hregenerates options h.parsed) (hlooks options config base files h)
      (hshort options config base files h)
  constructor
  · obtain htree | ⟨options, config, base, files, h, -⟩ := run_cases t arguments
    · rw [htree]
      exact ⟨htree ▸ .refl _, rfl, rfl, rfl, rfl⟩
    · exact (hresolves options config base files h).2
  · intro options config base files h
    exact ⟨(hresolves options config base files h).1, fun p hp => h.standsOutside hnames (hregenerates options h.parsed) hp⟩

def regeneratingArguments : List Text := ["--include".toList, "d".toList, "-o".toList, "o".toList]

def regeneratingOptions : Options := { includes := [some "d".toList], outputDir := some "o".toList }

def regeneratingConfig : Config := { outputDir := some (Path.ofText "o".toList) }

theorem resolves_regeneratingArguments :
    Resolves quotingTree regeneratingArguments regeneratingOptions regeneratingConfig Path.here [Path.ofText "d".toList] := by
  refine ⟨by decide +kernel, by decide +kernel, ⟨['.'], by decide +kernel, by decide +kernel⟩, by decide +kernel, .inl rfl, ?_,
    by decide, rfl⟩
  exact collect_eq_singleton (by decide +kernel) (by decide +kernel : _ = Except.ok (some ["o".toList]))
    (by decide +kernel : _ = Except.ok []) (by decide +kernel) (by decide +kernel)

theorem run_again_in_quotingTree :
    quotingTree.HasCwd ∧ quotingTree.PlainNames ∧ Regenerates quotingTree regeneratingOptions (Path.ofText "o".toList) ∧
      (run quotingTree regeneratingArguments).tree.get? ["o".toList, "d".toList] =
        some (.file (Charset.Utf8.encode "y\n".toList)) ∧
      (run quotingTree regeneratingArguments).Repeats
        (run (run quotingTree regeneratingArguments).tree regeneratingArguments) ∧
      Resolves (run quotingTree regeneratingArguments).tree regeneratingArguments regeneratingOptions regeneratingConfig Path.here
        [Path.ofText "d".toList] := by
  have hcwd : quotingTree.HasCwd := rfl
  have hnames : quotingTree.PlainNames := by decide +kernel
  have hregenerates : Regenerates quotingTree regeneratingOptions (Path.ofText "o".toList) := by
    refine ⟨rfl, ⟨'o', [], rfl, rfl⟩, fun written hwritten => ?_, .inr ⟨.directory, by decide +kernel⟩⟩
    obtain rfl : Path.stay = written := Option.some.inj hwritten
    decide +kernel
  have hresolves := resolves_regeneratingArguments
  have htree : (run quotingTree regeneratingArguments).tree =
      (resolveFiles regeneratingConfig Path.here quotingTree [Path.ofText "d".toList]).tree := by
    rw [hresolves.run_eq, tree_runResolve]
  have hasked : ∀ options, parse regeneratingArguments = .ok options → Regenerates quotingTree options (Path.ofText "o".toList) := by
    intro options hparsed
    obtain rfl := Except.ok.inj (hresolves.parsed.symm.trans hparsed)
    exact hregenerates
  have hlooks : ∀ options config base files, Resolves quotingTree regeneratingArguments options config base files →
      NeverLooksInto ["o".toList] config base quotingTree files := by
    intro options config base files h
    obtain ⟨rfl, rfl, rfl, rfl⟩ := hresolves.unique h
    exact neverLooksInto_singleton
      (looksElsewhere_of_not_recursive ["[e]".toList] rfl (by decide +kernel) (by decide +kernel) (by decide +kernel))
  have hshort : ∀ options config base files, Resolves quotingTree regeneratingArguments options config base files →
      base.normalize [] <+: ["o".toList] →
      Discovery.allShort (run quotingTree regeneratingArguments).tree base (base.normalize []) = true := by
    intro options config base files h _
    obtain ⟨rfl, rfl, rfl, rfl⟩ := hresolves.unique h
    rw [htree]
    decide +kernel
  obtain ⟨hrepeats, hagain⟩ := run_again hcwd hnames regeneratingArguments hasked hlooks hshort
  refine ⟨hcwd, hnames, hregenerates, ?_, hrepeats, (hagain _ _ _ _ hresolves).1⟩
  rw [htree]
  decide +kernel

theorem parse_baseDir_outputDir {written output : Text} (hwritten : written.head? ≠ some '-') (houtput : output.head? ≠ some '-') :
    parse ["-b".toList, written, "-o".toList, output] = .ok { baseDir := some written, outputDir := some output } := by
  have hoperand : ∀ {t : Text}, t.head? ≠ some '-' → t ≠ ['-', '-'] ∧ recognise t = .ok none := by
    intro t ht
    refine ⟨?_, if_pos ht⟩
    rintro rfl
    exact ht rfl
  have htokens : tokens ["-b".toList, written, "-o".toList, output] =
      .ok [.occurrence "-b".toList ⟨some .baseDir, true, none⟩, .operand written,
        .occurrence "-o".toList ⟨some .outputDir, true, none⟩, .operand output] := by
    have hb : recognise "-b".toList = .ok (some ⟨some .baseDir, true, none⟩) := by decide
    have ho : recognise "-o".toList = .ok (some ⟨some .outputDir, true, none⟩) := by decide
    simp only [tokens, hb, ho, (hoperand hwritten).2, (hoperand houtput).2, if_neg (hoperand hwritten).1,
      if_neg (hoperand houtput).1]
    rfl
  rw [parse, htokens]
  simp [readTokens, Occurrence.cluster, Progress.endRun, Progress.setAll, Switch.takesValue, Options.set, Except.mapError, bind,
    Except.bind, pure, Except.pure]

/-- The base directory, named in almost as many bytes as a path may take. -/
def farBase : Text := "b".toList ++ (List.replicate 818 "/../b".toList).flatten

def farPath : Path := ⟨.here, "b".toList :: (List.replicate 818 ["..".toList, "b".toList]).flatten⟩

def farTree : Tree := ⟨[], .folder "b".toList (.file "a".toList (Charset.Utf8.encode "t\n".toList) .empty) .empty⟩

def farArguments : List Text := ["-b".toList, farBase, "-o".toList, "b/oooo".toList]

def farOptions : Options := { baseDir := some farBase, outputDir := some "b/oooo".toList }

def farConfig : Config := { outputDir := some (Path.ofText "b/oooo".toList) }

theorem ofText_farBase : Path.ofText farBase = farPath := by decide +kernel

theorem reach_farPath : farTree.reach farPath = .ok ["b".toList] := by decide +kernel

theorem isDir_farPath : farTree.isDir farPath = .ok true := by
  rw [Tree.isDir, Tree.entry, reach_farPath]
  rfl

theorem resolves_farArguments : Resolves farTree farArguments farOptions farConfig farPath [Path.ofText "a".toList] := by
  refine ⟨parse_baseDir_outputDir (by decide +kernel) (by decide), by decide +kernel, ⟨farBase, rfl, ofText_farBase.symm⟩,
    isDir_farPath, .inl rfl, ?_, by decide, rfl⟩
  exact collect_eq_singleton isDir_farPath (by decide +kernel : _ = Except.ok (some ["b".toList, "oooo".toList])) reach_farPath
    (by decide +kernel) (by decide +kernel)

/-- The first command ends well, but leaves a path below the base directory that is too long to ask about. -/
theorem resolveFiles_farPath :
    (resolveFiles farConfig farPath farTree [Path.ofText "a".toList]).outcome.map Run.ok = .ok true ∧
      Discovery.allShort (resolveFiles farConfig farPath farTree [Path.ofText "a".toList]).tree farPath ["b".toList] = false := by
  decide +kernel

/-- No marker is met at all, but the second command breaks off while it searches for its input. -/
theorem exists_path_too_long_again :
    ∃ arguments options out, parse arguments = .ok options ∧ options.quote = none ∧ farTree.HasCwd ∧ farTree.PlainNames ∧
      Regenerates farTree options out ∧
      (∀ options config base files, Resolves farTree arguments options config base files →
        NeverLooksInto (out.normalize farTree.cwd) config base farTree files) ∧
      (run farTree arguments).exit = .ok 0 ∧
      (run (run farTree arguments).tree arguments).exit = .error (.os .nameTooLong) := by
  have hresolves := resolves_farArguments
  have hregenerates : Regenerates farTree farOptions (Path.ofText "b/oooo".toList) := by
    refine ⟨rfl, ⟨'b', "/oooo".toList, rfl, rfl⟩, fun written hwritten => ?_, .inr ⟨.directory, by decide +kernel⟩⟩
    obtain rfl : farBase = written := Option.some.inj hwritten
    rw [ofText_farBase, Tree.normalize_of_reach reach_farPath]
    decide +kernel
  have hlooks : ∀ options config base files, Resolves farTree farArguments options config base files →
      NeverLooksInto ["b".toList, "oooo".toList] config base farTree files := by
    intro options config base files h
    obtain ⟨rfl, rfl, rfl, rfl⟩ := hresolves.unique h
    exact neverLooksInto_singleton
      (looksElsewhere_of_not_recursive ["t".toList] rfl (by decide +kernel) (by decide +kernel) (by decide))
  obtain ⟨hends, hlong⟩ := resolveFiles_farPath
  have htree : (run farTree farArguments).tree = (resolveFiles farConfig farPath farTree [Path.ofText "a".toList]).tree := by
    rw [hresolves.run_eq, tree_runResolve]
  have hkeeps : Tree.KeepsDirs farTree (run farTree farArguments).tree := by
    rw [htree]
    exact keepsDirs_of_resolveFiles _ rfl
  have hdir := Tree.isDir_of_keepsDirs hkeeps isDir_farPath
  refine ⟨farArguments, farOptions, Path.ofText "b/oooo".toList, hresolves.parsed, rfl, rfl, by decide +kernel, hregenerates, hlooks,
    ?_, ?_⟩
  · obtain ⟨run, hrun, hok⟩ := Quotation.Outcome.map_eq_ok_iff.1 hends
    rw [hresolves.run_eq, exit_runResolve hrun, hok]
    rfl
  · have hresolve : (run farTree farArguments).tree.resolve (Path.ofText "b/oooo".toList) = .ok ["b".toList, "oooo".toList] := by
      rw [Tree.resolve_eq_of_cwd hkeeps.cwd]
      decide +kernel
    have hskip : (searchOf farOptions farConfig farPath).skipDir.mapM (run farTree farArguments).tree.resolve =
        .ok (some ["b".toList, "oooo".toList]) := by
      show (some (Path.ofText "b/oooo".toList)).mapM _ = _
      rw [Option.mapM_some, hresolve]
      rfl
    have hcollect : collect (run farTree farArguments).tree (searchOf farOptions farConfig farPath) [] =
        .error (.fault (.os .nameTooLong)) :=
      collect_of_not_allShort hdir hskip (Tree.reach_of_keepsDirs hkeeps reach_farPath) (by rw [htree]; exact hlong)
    have hwritten : farOptions.baseDir = some farBase := rfl
    have hpaths : farOptions.paths = [] := rfl
    rw [run_eq_withFiles hresolves.parsed hresolves.configured hwritten (ofText_farBase ▸ hdir) (.inl rfl), withFiles,
      ofText_farBase, hpaths, hcollect]

end Quotation.Command
