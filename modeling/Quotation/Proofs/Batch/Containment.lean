import Quotation.Proofs.Batch.Destination

/-!
# Output that stays in the output directory

A destination is put together from names as they are written, so where double dots lead a source out of the base directory they lead its output out of the output directory too. With the output directory beside the base directory it is the source itself that is written over (`normalize_destination_of_up`). The output of every other source stays inside (`isPrefix_destination`), and a run without sources that leave the base directory changes no file outside of the output directory (`resolveFiles_contained`).
-/

namespace Quotation

open Outcome

variable {t u : Tree} {config : Config} {base source out : Path} {files : List Path} {names : List Text} {place : Place}
  {content : Bytes}

/-! ### Sources that leave the base directory -/

/-- As it is written, the path goes into the directory and then above it. -/
def Path.Leaves (p base : Path) : Prop := ∃ names, p = base.within ⟨.here, names⟩ ∧ Path.descent? names = none

theorem leaves_within_iff : (base.within ⟨.here, names⟩).Leaves base ↔ Path.descent? names = none := by
  refine ⟨fun hleaves => ?_, fun hnone => ⟨names, rfl, hnone⟩⟩
  obtain ⟨others, hsame, hnone⟩ := hleaves
  have hrelative := Path.relativeTo?_within base names
  rw [hsame, Path.relativeTo?_within] at hrelative
  obtain rfl : others = names := by simpa using hrelative
  exact hnone

/-! ### One destination -/

/-- The output of a source that does not leave the base directory is at the same place below any output directory. -/
theorem exists_below_of_not_leaves (hread : u.read source = .ok content) (h : ¬ source.Leaves base) :
    ∃ rel, ∀ cwd out, (destination base source out).normalize cwd = out.normalize cwd ++ rel := by
  by_cases hstarts : source.StartsWith base
  · obtain ⟨names, rfl⟩ := hstarts
    obtain ⟨rel, hrel⟩ := Option.ne_none_iff_exists'.1 (mt leaves_within_iff.2 h)
    exact ⟨rel, fun cwd out => by rw [destination_within, Path.normalize_of_descent? hrel]⟩
  · exact ⟨if source.name = [] then [] else [source.name], normalize_destination_of_not_startsWith hread hstarts⟩

theorem isPrefix_destination (hread : u.read source = .ok content) (h : ¬ source.Leaves base) (cwd : Place) :
    out.normalize cwd <+: (destination base source out).normalize cwd := by
  obtain ⟨rel, hrel⟩ := exists_below_of_not_leaves hread h
  rw [hrel]
  exact List.prefix_append _ rel

/-- With the output directory beside the base directory, a source that goes up from there has its output at its own place. -/
theorem normalize_destination_of_up {cwd : Place} (h : (out.normalize cwd).dropLast = (base.normalize cwd).dropLast)
    (names : List Text) :
    (destination base (base.within ⟨.here, Path.up :: names⟩) out).normalize cwd =
      (base.within ⟨.here, Path.up :: names⟩).normalize cwd := by
  have hstep : Path.step (out.normalize cwd) Path.up = Path.step (base.normalize cwd) Path.up := by
    rw [Path.step, Path.step, if_pos rfl, if_pos rfl, h]
  rw [destination_within, Path.normalize_within, Path.normalize_within, List.foldl_cons, List.foldl_cons, hstep]

/-! ### A whole run -/

/-- What a source puts out stands in the output directory, unless the source leaves the base directory. -/
theorem isInside_of_done {job : Job} (hkeeps : Tree.KeepsDirs t u) (hout : config.outputDir = some out)
    (hdir : t.isDir out = .ok true) (hdone : job.Done config base t files) (hleaves : ¬ job.resolved.source.Leaves base)
    (hreach : u.reach (job.dest config base) = .ok place) (hget : u.get? place = some (.file content)) :
    t.IsInside out place := by
  obtain ⟨old, hread⟩ := read_source_of_resolveFile hdone.2
  have hplace : place = (destination base job.resolved.source out).normalize t.cwd := by
    rw [← hkeeps.cwd, ← Tree.normalize_of_reach hreach, Job.dest, hout, Option.getD_some]
  refine ⟨hplace ▸ isPrefix_destination hread hleaves t.cwd, ?_⟩
  rintro rfl
  obtain ⟨-, hgetDir⟩ := Tree.exists_reach_of_isDir hdir
  cases (hkeeps.get? _ hgetDir).symm.trans hget

theorem isInside_or_leaves (hout : config.outputDir = some out) (hdir : t.isDir out = .ok true) {after : Tree}
    (hdiffers : Tree.DiffersBy (outputs config base t files) t after)
    (hafter : after.get? place = some (.file content)) (hbefore : t.get? place ≠ some (.file content)) :
    t.IsInside out place ∨
      ∃ job, Job.Done config base t files job ∧ job.resolved.source.Leaves base ∧
        after.reach (job.dest config base) = .ok place := by
  obtain ⟨job, hdone, hreach, -⟩ := (hasOnlyOutput_of_differsBy hdiffers).file place content hafter hbefore
  by_cases hleaves : job.resolved.source.Leaves base
  · exact .inr ⟨job, hdone, hleaves, hreach⟩
  · exact .inl (isInside_of_done hdiffers.keepsDirs hout hdir hdone hleaves hreach hafter)

/-- However a run with an output directory ends, every file that is new or has other bytes stands inside of it or is the output of a source that leaves the base directory. Without such sources the files elsewhere are as they were. -/
theorem resolveFiles_contained (hout : config.outputDir = some out) (hdir : t.isDir out = .ok true) :
    let after := (resolveFiles config base t files).tree
    (∀ place content, after.get? place = some (.file content) → t.get? place ≠ some (.file content) →
      t.IsInside out place ∨
        ∃ job, Job.Done config base t files job ∧ job.resolved.source.Leaves base ∧
          after.reach (job.dest config base) = .ok place) ∧
      ((∀ file ∈ files, ¬ (base.within file).Leaves base) → ∀ place content, ¬ t.IsInside out place →
        (after.get? place = some (.file content) ↔ t.get? place = some (.file content))) := by
  intro after
  have hstart : t.HasStart (config.outputDir.getD base) := by
    rw [hout, Option.getD_some]
    exact Tree.hasStart_of_entry (Tree.entry_of_isDir hdir)
  have hdiffers : Tree.DiffersBy (outputs config base t files) t after := differsBy_resolveFiles hstart
  refine ⟨fun place content => isInside_or_leaves hout hdir hdiffers, fun hstay place content houtside => ?_⟩
  have hsame : ∀ content, after.get? place = some (.file content) → t.get? place = some (.file content) := by
    intro content hafter
    by_contra hbefore
    obtain hinside | ⟨job, hdone, hleaves, -⟩ := isInside_or_leaves hout hdir hdiffers hafter hbefore
    · exact houtside hinside
    · rw [source_of_resolveFile hdone.2] at hleaves
      exact hstay job.file hdone.1.mem hleaves
  refine ⟨hsame content, fun hbefore => ?_⟩
  obtain ⟨content', hafter⟩ := (hasOnlyOutput_of_differsBy hdiffers).kept place content hbefore
  rwa [(hsame content' hafter).symm.trans hbefore] at hafter

def besideTree : Tree :=
  ⟨[], .folder "b".toList .empty (.folder "o".toList .empty
    (.file "d".toList (Charset.Utf8.encode "[e]\n".toList) (.file "e".toList (Charset.Utf8.encode "y\n".toList) .empty)))⟩

theorem resolveFiles_contained_in_besideTree :
    (¬ besideTree.IsInside (Path.ofText "o".toList) ["d".toList] ∧
      ∀ file ∈ ["d", "b/../e"].map fun file => Path.ofText file.toList, ¬ (Path.here.within file).Leaves Path.here) ∧
    ∀ content,
      (resolveFiles { outputDir := some (Path.ofText "o".toList) } Path.here besideTree
        (["d", "b/../e"].map fun file => Path.ofText file.toList)).tree.get? ["d".toList] = some (.file content) ↔
        besideTree.get? ["d".toList] = some (.file content) := by
  have houtside : ¬ besideTree.IsInside (Path.ofText "o".toList) ["d".toList] := by
    rw [Tree.IsInside]
    decide
  have hstay : ∀ file ∈ ["d", "b/../e"].map fun file => Path.ofText file.toList, ¬ (Path.here.within file).Leaves Path.here := by
    intro file hfile
    obtain rfl | rfl : file = Path.ofText "d".toList ∨ file = Path.ofText "b/../e".toList := by simpa using hfile
    · change ¬ (Path.here.within ⟨.here, ["d".toList]⟩).Leaves Path.here
      rw [leaves_within_iff]
      decide
    · change ¬ (Path.here.within ⟨.here, ["b".toList, Path.up, "e".toList]⟩).Leaves Path.here
      rw [leaves_within_iff]
      decide
  exact ⟨⟨houtside, hstay⟩, fun content => (resolveFiles_contained rfl (by rfl)).2 hstay ["d".toList] content houtside⟩

/-- From `b` the path `../d` goes up, so its output is written from `o` up. -/
theorem exists_output_over_source :
    ∃ resolved, (resolveFiles { outputDir := some (Path.ofText "o".toList) } (Path.ofText "b".toList) besideTree
        [Path.ofText "../d".toList]).outcome = .ok ⟨[.placed ⟨resolved, Path.ofText "o/../d".toList⟩]⟩ ∧
      resolved.source.normalize besideTree.cwd = ["d".toList] ∧
      (besideTree.isDir (Path.ofText "o".toList) = .ok true ∧ ¬ besideTree.IsInside (Path.ofText "o".toList) ["d".toList]) ∧
      besideTree.get? ["d".toList] = some (.file (Charset.Utf8.encode "[e]\n".toList)) ∧
      (resolveFiles { outputDir := some (Path.ofText "o".toList) } (Path.ofText "b".toList) besideTree
        [Path.ofText "../d".toList]).tree.get? ["d".toList] = some (.file (Charset.Utf8.encode "y\n".toList)) := by
  refine ⟨⟨Path.ofText "b/../d".toList, ["y".toList], true, 1, []⟩, ?_⟩
  rw [Tree.IsInside]
  decide +kernel

end Quotation
