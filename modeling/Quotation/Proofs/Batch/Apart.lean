import Quotation.Proofs.Batch.Containment

/-!
# Outputs that keep apart

As long as no source leaves the base directory, two of them have one destination exactly if they would have one when written in place (`normalize_destination_inj_iff`). So different files keep apart as long as their paths start with the base directory, and any two of the others share a destination exactly if they share their last name. Where all destinations of a run are different, each of its outputs is still there at the end (`resolveFiles_keeps_apart`).
-/

namespace Quotation

open Outcome

variable {t u : Tree} {config : Config} {base file source other out : Path} {files : List Path} {run : Run} {placed : Placed}
  {content bytes : Bytes} {encoding : Option Text}

/-! ### Two destinations -/

theorem normalize_destination_inj_iff (hread : t.read source = .ok content) (hother : u.read other = .ok bytes)
    (h : ¬ source.Leaves base) (h' : ¬ other.Leaves base) (cwd : Place) :
    (destination base source out).normalize cwd = (destination base other out).normalize cwd ↔
      (destination base source base).normalize cwd = (destination base other base).normalize cwd := by
  obtain ⟨rel, hrel⟩ := exists_below_of_not_leaves hread h
  obtain ⟨rel', hrel'⟩ := exists_below_of_not_leaves hother h'
  rw [hrel, hrel, hrel', hrel', List.append_cancel_left_eq, List.append_cancel_left_eq]

/-- The output is the source itself or goes by the names that the source has below the base directory. -/
def Config.Mirrors (config : Config) (base source : Path) : Prop :=
  source.StartsWith base ∧ (config.outputDir.getD base = base ∨ ¬ source.Leaves base)

/-- Sources that are mirrored share a destination only if they are the same file. -/
theorem Config.Mirrors.normalize_inj_iff (h : config.Mirrors base source) (h' : config.Mirrors base other)
    (hread : t.read source = .ok content) (hother : u.read other = .ok bytes) (cwd : Place) :
    (destination base source (config.outputDir.getD base)).normalize cwd =
        (destination base other (config.outputDir.getD base)).normalize cwd ↔
      source.normalize cwd = other.normalize cwd := by
  obtain ⟨hstarts, hstays⟩ := h
  obtain ⟨hstarts', hstays'⟩ := h'
  by_cases hout : config.outputDir.getD base = base
  · rw [hout, destination_self hstarts, destination_self hstarts']
  · rw [normalize_destination_inj_iff hread hother (hstays.resolve_left hout) (hstays'.resolve_left hout),
      destination_self hstarts, destination_self hstarts']

theorem normalize_destination_eq_iff_name (hread : t.read source = .ok content) (hother : u.read other = .ok bytes)
    (h : ¬ source.StartsWith base) (h' : ¬ other.StartsWith base) (cwd : Place) :
    (destination base source out).normalize cwd = (destination base other out).normalize cwd ↔ source.name = other.name := by
  rw [normalize_destination_of_not_startsWith hread h, normalize_destination_of_not_startsWith hother h',
    List.append_cancel_left_eq]
  constructor
  · intro hnames
    by_cases hname : source.name = [] <;> by_cases hname' : other.name = [] <;> simp_all
  · intro hname
    rw [hname]

/-! ### What stays of an output -/

/-- The destination holds the lines that the file was resolved to. -/
def Placed.Stands (t : Tree) (encoding : Option Text) (placed : Placed) : Prop :=
  ∃ charset content text, Charset.NamedBy encoding charset ∧
    t.get? (placed.destination.normalize t.cwd) = some (.file content) ∧ charset.decode content = .ok text ∧
    Text.lines (Text.unifyBreaks text) = placed.resolved.lines

theorem stands_of_runFile (hcwd : t.HasCwd) (h : (runFile config base t file).outcome = .ok (.placed placed)) :
    placed.Stands (runFile config base t file).tree config.encoding := by
  obtain ⟨hresolve, -, -, -⟩ := exists_of_placed h
  obtain ⟨lines, hlines⟩ := exists_citedLines_of_resolveFile hresolve
  obtain ⟨source, hsource, -⟩ := Tree.readLines_eq_ok_iff.1 (Tree.citedLines_eq_ok_iff.1 hlines)
  obtain ⟨charset, -, hnamed, -, -⟩ := Tree.readText_eq_ok_iff.1 hsource
  obtain ⟨place, content, text, hplace, hget, hdecode, hstored, -⟩ := (isWritten_of_runFile hcwd hnamed h).stored
  refine ⟨charset, content, text, hnamed, ?_, hdecode, hstored⟩
  rwa [Tree.normalize_of_resolve hplace]

theorem Placed.Stands.of_differsBy {puts : Puts} (h : placed.Stands t encoding) (hdiffers : Tree.DiffersBy puts t u)
    (helsewhere : ∀ p bytes, puts.holds p bytes → p.normalize t.cwd ≠ placed.destination.normalize t.cwd) :
    placed.Stands u encoding := by
  obtain ⟨charset, content, text, hnamed, hget, hdecode, hlines⟩ := h
  refine ⟨charset, content, text, hnamed, ?_, hdecode, hlines⟩
  rw [hdiffers.cwd]
  refine (hdiffers.file_iff (fun p bytes hholds hreach => helsewhere p bytes hholds ?_) content).2 hget
  have hplace := Tree.normalize_of_reach hreach
  rwa [hdiffers.cwd] at hplace

/-! ### A whole run -/

def Run.puts (run : Run) : Puts where
  dest p := ∃ placed ∈ run.files, placed.destination = p
  holds p _ := ∃ placed ∈ run.files, placed.destination = p

theorem Run.files_subset (result : FileResult) (others : Run) : others.files ⊆ (Run.mk (result :: others.results)).files := by
  cases result with
  | placed first => exact List.subset_cons_self first others.files
  | failed source complaint => exact List.Subset.refl others.files

theorem differsBy_puts (hstart : t.HasStart (config.outputDir.getD base))
    (hrun : (resolveFiles config base t files).outcome = .ok run) :
    Tree.DiffersBy run.puts t (resolveFiles config base t files).tree := by
  induction files generalizing t run with
  | nil => exact .refl _ t
  | cons file rest ih =>
    obtain ⟨result, others, hfirst, hothers, rfl⟩ := resolveFiles_cons_eq_ok_iff.1 hrun
    have hplaced : ∀ resolved, (resolveFile t config base file).outcome = .ok resolved →
        ∃ placed ∈ (Run.mk (result :: others.results)).files,
          placed.destination = Job.dest config base ⟨t, file, resolved⟩ := by
      intro resolved hresolve
      have hresult := resultIn_of_runFile hfirst
      rw [resultIn, hresolve] at hresult
      obtain rfl := Option.some.inj hresult
      exact ⟨_, List.mem_cons_self, rfl⟩
    have hstep : Tree.DiffersBy (Run.mk (result :: others.results)).puts t (runFile config base t file).tree :=
      differsBy_runFile hstart hplaced fun resolved _ hresolve _ => hplaced resolved hresolve
    rw [resolveFiles_cons_of_ok hfirst]
    refine hstep.trans ((ih (hstep.keepsDirs.hasStart hstart) hothers).mono ?_ ?_)
    · rintro p ⟨placed, hmem, hdest⟩
      exact ⟨placed, Run.files_subset result others hmem, hdest⟩
    · rintro p _ ⟨placed, hmem, hdest⟩
      exact ⟨placed, Run.files_subset result others hmem, hdest⟩

theorem exists_read_of_mem_files (hrun : (resolveFiles config base t files).outcome = .ok run) (hplaced : placed ∈ run.files) :
    placed.destination = destination base placed.resolved.source (config.outputDir.getD base) ∧
      ∃ (u : Tree) (content : Bytes), u.read placed.resolved.source = .ok content := by
  induction files generalizing t run with
  | nil =>
    obtain rfl := Except.ok.inj hrun
    cases hplaced
  | cons file rest ih =>
    obtain ⟨result, others, hfirst, hothers, rfl⟩ := resolveFiles_cons_eq_ok_iff.1 hrun
    cases result with
    | failed source complaint => exact ih hothers hplaced
    | placed first =>
      rw [Run.files_cons_placed, List.mem_cons] at hplaced
      obtain rfl | hplaced := hplaced
      · obtain ⟨hresolve, hdest, -, -⟩ := exists_of_placed hfirst
        exact ⟨hdest, t, read_source_of_resolveFile hresolve⟩
      · exact ih hothers hplaced

/-- With all destinations different, each output is there at the end. -/
theorem stands_of_resolveFiles (hcwd : t.HasCwd) (hrun : (resolveFiles config base t files).outcome = .ok run)
    (hapart : run.files.Pairwise fun a b => a.destination.normalize t.cwd ≠ b.destination.normalize t.cwd) :
    ∀ placed ∈ run.files, placed.Stands (resolveFiles config base t files).tree config.encoding := by
  induction files generalizing t run with
  | nil =>
    obtain rfl := Except.ok.inj hrun
    intro placed hplaced
    cases hplaced
  | cons file rest ih =>
    obtain ⟨result, others, hfirst, hothers, rfl⟩ := resolveFiles_cons_eq_ok_iff.1 hrun
    have hkeeps : Tree.KeepsDirs t (runFile config base t file).tree := keepsDirs_of_runFile hcwd
    rw [resolveFiles_cons_of_ok hfirst]
    dsimp only
    rw [← hkeeps.cwd] at hapart
    cases result with
    | failed source complaint =>
      rw [Run.files_cons_failed] at hapart ⊢
      exact ih (hkeeps.hasCwd hcwd) hothers hapart
    | placed first =>
      rw [Run.files_cons_placed, List.pairwise_cons] at hapart
      obtain ⟨hfirstApart, hrestApart⟩ := hapart
      rw [Run.files_cons_placed]
      intro placed hplaced
      obtain rfl | hplaced := List.mem_cons.1 hplaced
      · have hstart : (runFile config base t file).tree.HasStart (config.outputDir.getD base) := (hkeeps.hasCwd hcwd).hasStart _
        refine (stands_of_runFile hcwd hfirst).of_differsBy (differsBy_puts hstart hothers) ?_
        rintro p _ ⟨later, hlater, rfl⟩
        exact (hfirstApart later hlater).symm
      · exact ih (hkeeps.hasCwd hcwd) hothers hrestApart placed hplaced

/-- Different files that are mirrored have different destinations, files elsewhere share one exactly if they share their last name, and where all are different each output is there after the run. -/
theorem resolveFiles_keeps_apart (hcwd : t.HasCwd)
    (hdifferent : files.Pairwise fun p q => (base.within p).normalize t.cwd ≠ (base.within q).normalize t.cwd)
    (hrun : (resolveFiles config base t files).outcome = .ok run) :
    (run.files.Pairwise fun a b => config.Mirrors base a.resolved.source → config.Mirrors base b.resolved.source →
        a.destination.normalize t.cwd ≠ b.destination.normalize t.cwd) ∧
      (∀ a ∈ run.files, ∀ b ∈ run.files, ¬ a.resolved.source.StartsWith base → ¬ b.resolved.source.StartsWith base →
        (a.destination.normalize t.cwd = b.destination.normalize t.cwd ↔ a.resolved.source.name = b.resolved.source.name)) ∧
      ((run.files.Pairwise fun a b => a.destination.normalize t.cwd ≠ b.destination.normalize t.cwd) →
        ∀ placed ∈ run.files, placed.Stands (resolveFiles config base t files).tree config.encoding) := by
  refine ⟨?_, fun a ha b hb helsewhere helsewhere' => ?_, stands_of_resolveFiles hcwd hrun⟩
  · have hsources : run.files.Pairwise fun a b => a.resolved.source.normalize t.cwd ≠ b.resolved.source.normalize t.cwd := by
      have hlisted : (files.map base.within).Pairwise fun p q => p.normalize t.cwd ≠ q.normalize t.cwd :=
        List.pairwise_map.2 hdifferent
      have hplaced := hlisted.sublist (interleaves_of_resolveFiles hrun).sublist
      rwa [List.pairwise_map] at hplaced
    refine hsources.imp_of_mem fun {a b} ha hb hsource hmirrors hmirrors' => ?_
    obtain ⟨hdest, u, content, hread⟩ := exists_read_of_mem_files hrun ha
    obtain ⟨hdest', u', content', hread'⟩ := exists_read_of_mem_files hrun hb
    rw [hdest, hdest']
    exact mt (hmirrors.normalize_inj_iff hmirrors' hread hread' t.cwd).1 hsource
  · obtain ⟨hdest, u, content, hread⟩ := exists_read_of_mem_files hrun ha
    obtain ⟨hdest', u', content', hread'⟩ := exists_read_of_mem_files hrun hb
    rw [hdest, hdest']
    exact normalize_destination_eq_iff_name hread hread' helsewhere helsewhere' t.cwd

def twinTree : Tree :=
  ⟨[], .folder "x".toList (.file "d".toList (Charset.Utf8.encode "[e]\n".toList) .empty)
    (.folder "z".toList (.file "d".toList (Charset.Utf8.encode "w\n".toList) .empty)
      (.file "e".toList (Charset.Utf8.encode "y\n".toList) .empty))⟩

def twinConfig : Config := { outputDir := some (Path.ofText "o".toList) }

theorem resolveFiles_keeps_apart_in_twinTree :
    ∃ first second, (resolveFiles twinConfig Path.here twinTree (["x/d", "z/d"].map fun file => Path.ofText file.toList)).outcome =
        .ok ⟨[.placed first, .placed second]⟩ ∧
      first.destination.normalize twinTree.cwd ≠ second.destination.normalize twinTree.cwd ∧
      ∀ placed ∈ [first, second], placed.Stands
        (resolveFiles twinConfig Path.here twinTree (["x/d", "z/d"].map fun file => Path.ofText file.toList)).tree
        twinConfig.encoding := by
  have hrun : (resolveFiles twinConfig Path.here twinTree (["x/d", "z/d"].map fun file => Path.ofText file.toList)).outcome =
      .ok ⟨[.placed ⟨⟨Path.ofText "x/d".toList, ["y".toList], true, 1, []⟩, Path.ofText "o/x/d".toList⟩,
        .placed ⟨⟨Path.ofText "z/d".toList, ["w".toList], false, 0, []⟩, Path.ofText "o/z/d".toList⟩]⟩ := by decide +kernel
  have hmirrors : ∀ names, Path.descent? names ≠ none → twinConfig.Mirrors Path.here (Path.here.within ⟨.here, names⟩) :=
    fun names hnames => ⟨⟨names, rfl⟩, .inr (mt leaves_within_iff.1 hnames)⟩
  obtain ⟨hmirrored, -, hstands⟩ := resolveFiles_keeps_apart (by rfl) (by decide +kernel) hrun
  have hapart := List.pairwise_pair.1 hmirrored (hmirrors ["x".toList, "d".toList] (by decide))
    (hmirrors ["z".toList, "d".toList] (by decide))
  exact ⟨_, _, hrun, hapart, hstands (List.pairwise_pair.2 hapart)⟩

/-- By their absolute paths the files do not start with the working directory as that is written, so both are written to `o/d`. -/
theorem exists_output_overwritten :
    ∃ first second, (resolveFiles twinConfig Path.here twinTree (["/x/d", "/z/d"].map fun file => Path.ofText file.toList)).outcome =
        .ok ⟨[.placed first, .placed second]⟩ ∧
      first.resolved.source.normalize twinTree.cwd ≠ second.resolved.source.normalize twinTree.cwd ∧
      first.destination = second.destination ∧ first.resolved.lines = ["y".toList] ∧
      (resolveFiles twinConfig Path.here twinTree (["/x/d", "/z/d"].map fun file => Path.ofText file.toList)).tree.get?
        (first.destination.normalize twinTree.cwd) = some (.file (Charset.Utf8.encode "w\n".toList)) := by
  refine ⟨⟨⟨Path.ofText "/x/d".toList, ["y".toList], true, 1, []⟩, Path.ofText "o/d".toList⟩,
    ⟨⟨Path.ofText "/z/d".toList, ["w".toList], false, 0, []⟩, Path.ofText "o/d".toList⟩, ?_⟩
  decide +kernel

end Quotation
