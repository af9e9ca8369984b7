import Quotation.Proofs.Resolution.Written
import Quotation.Proofs.Tree.Staged

/-!
# What a run puts out

However a run ends, the tree differs from the one it started with by complete files and directories only: a file that is new or has other bytes is the output of a file that the run came to and resolved, and a new directory stands where a path above such an output leads (`differsBy_resolveFiles`). Nothing is removed, and nothing is left of temporary files.

A path above a destination leads to a directory above the file, as long as no double dots follow. Where they do, as in `o/z/../x`, a directory is made beside the way to the file too, and a place that a failed file would have had may become a directory on the way to another file (`exists_directory_for_failed`).
-/

namespace Quotation

open Outcome

/-- On its way through the files, the run comes to `file` in the tree `u`. -/
def ComesTo (config : Config) (base : Path) (t : Tree) (files : List Path) (u : Tree) (file : Path) : Prop :=
  ∃ earlier later before, files = earlier ++ file :: later ∧ (resolveFiles config base t earlier).outcome = .ok before ∧
    (resolveFiles config base t earlier).tree = u

/-- The bytes that a resolved file is written with. -/
def IsOutput (config : Config) (resolved : Resolved) (content : Bytes) : Prop :=
  Tree.IsTextOf config.encoding resolved.lines content

/-- A file that has been resolved, with the tree that it was resolved in. -/
structure Job where
  tree : Tree
  file : Path
  resolved : Resolved

namespace Job

def Done (config : Config) (base : Path) (t : Tree) (files : List Path) (job : Job) : Prop :=
  ComesTo config base t files job.tree job.file ∧
    (resolveFile job.tree config base job.file).outcome = .ok job.resolved

def dest (config : Config) (base : Path) (job : Job) : Path :=
  destination base job.resolved.source (config.outputDir.getD base)

/-- The complete output: the text of the lines, or the bytes of a source that has not changed. -/
def Holds (config : Config) (job : Job) (content : Bytes) : Prop :=
  if job.resolved.changed then IsOutput config job.resolved content else job.tree.read job.resolved.source = .ok content

end Job

def outputs (config : Config) (base : Path) (t : Tree) (files : List Path) : Puts where
  dest p := ∃ job, Job.Done config base t files job ∧ job.dest config base = p
  holds p content := ∃ job, Job.Done config base t files job ∧ job.dest config base = p ∧ job.Holds config content

variable {t u : Tree} {config : Config} {base file first : Path} {files rest : List Path} {job : Job}

theorem comesTo_head : ComesTo config base t (file :: rest) t file := ⟨[], rest, ⟨[]⟩, rfl, rfl, rfl⟩

theorem comesTo_singleton (h : ComesTo config base t [first] u file) : u = t ∧ file = first := by
  obtain ⟨earlier, later, before, hlist, -, rfl⟩ := h
  obtain ⟨rfl, hsame⟩ : earlier = [] ∧ first = file := by
    cases earlier with
    | nil => exact ⟨rfl, (List.cons.inj hlist).1⟩
    | cons other others => simp at hlist
  exact ⟨rfl, hsame.symm⟩

theorem ComesTo.mem (h : ComesTo config base t files u file) : file ∈ files := by
  obtain ⟨earlier, later, -, rfl, -⟩ := h
  simp

theorem ComesTo.tail {result : FileResult} (hfirst : (runFile config base t first).outcome = .ok result)
    (h : ComesTo config base (runFile config base t first).tree rest u file) : ComesTo config base t (first :: rest) u file := by
  obtain ⟨earlier, later, before, rfl, hbefore, htree⟩ := h
  refine ⟨first :: earlier, later, ⟨result :: before.results⟩, rfl, ?_, ?_⟩
  · rw [resolveFiles, hfirst]
    dsimp only
    rw [hbefore]
    rfl
  · rw [resolveFiles, hfirst]
    exact htree

/-! ### One file -/

theorem exists_citedLines_of_resolveFile {resolved : Resolved} (h : (resolveFile t config base file).outcome = .ok resolved) :
    ∃ lines, t.citedLines config.encoding resolved.source = .ok lines := by
  rw [resolveFile, mapError_eq_ok_iff, map_eq_ok_iff] at h
  obtain ⟨lines, houtcome, rfl⟩ := h
  rw [resolveSource, Traced.outcome_bind, Traced.outcome_lift] at houtcome
  cases hcited : t.citedLines config.encoding (base.within file) with
  | ok lines => exact ⟨lines, rfl⟩
  | error failure => simp [hcited] at houtcome

theorem read_source_of_resolveFile {resolved : Resolved} (h : (resolveFile t config base file).outcome = .ok resolved) :
    ∃ content, t.read resolved.source = .ok content := by
  obtain ⟨lines, hlines⟩ := exists_citedLines_of_resolveFile h
  exact Tree.exists_read_of_citedLines hlines

/-- The names by which a destination goes on after the output directory end the path of the source. -/
theorem exists_destination_eq (base source out : Path) :
    ∃ names, destination base source out = out.within ⟨.here, names⟩ ∧ names <:+ source.parts := by
  rw [destination]
  cases hrelative : source.relativeTo? base with
  | none =>
    refine ⟨_, rfl, ?_⟩
    rw [Path.name]
    obtain hparts | ⟨front, last, hparts⟩ := List.eq_nil_or_concat source.parts
    · simp [hparts]
    · rw [hparts, List.concat_eq_append, List.getLast?_concat, Option.getD_some]
      split
      · exact List.nil_suffix
      · exact List.suffix_append front [last]
  | some relative =>
    rw [Path.relativeTo?] at hrelative
    split at hrelative
    · obtain rfl := Option.some.inj hrelative
      exact ⟨_, rfl, List.drop_suffix _ _⟩
    · cases hrelative

theorem Tree.HasStart.destination {out : Path} (h : t.HasStart out) (source : Path) : t.HasStart (destination base source out) := by
  obtain ⟨names, hnames, -⟩ := exists_destination_eq base source out
  rw [hnames]
  exact h

theorem differsBy_place {puts : Puts} {dest : Path} (job : Job) (hstart : job.tree.HasStart dest)
    (hresolve : (resolveFile job.tree config base job.file).outcome = .ok job.resolved) (hdest : puts.dest dest)
    (hholds : ∀ content, job.Holds config content → puts.holds dest content) :
    Tree.DiffersBy puts job.tree (place job.tree config dest job.resolved).tree := by
  rw [place]
  split
  · next hchanged =>
    refine Tree.differsBy_writeLines hstart hdest fun content htext => hholds content ?_
    rwa [Job.Holds, if_pos hchanged]
  · next hchanged =>
    obtain ⟨content, hread⟩ := read_source_of_resolveFile hresolve
    have hcontent : job.Holds config content := by rwa [Job.Holds, if_neg hchanged]
    split
    · split
      · exact .refl puts job.tree
      · exact Tree.differsBy_copyFile hstart hdest hread (hholds content hcontent)
    · exact .refl puts job.tree
    · exact .refl puts job.tree

theorem differsBy_runFile {puts : Puts} (hstart : t.HasStart (config.outputDir.getD base))
    (hdest : ∀ resolved, (resolveFile t config base file).outcome = .ok resolved →
      puts.dest (Job.dest config base ⟨t, file, resolved⟩))
    (hholds : ∀ resolved content, (resolveFile t config base file).outcome = .ok resolved →
      Job.Holds config ⟨t, file, resolved⟩ content → puts.holds (Job.dest config base ⟨t, file, resolved⟩) content) :
    Tree.DiffersBy puts t (runFile config base t file).tree := by
  rw [runFile]
  split
  · split <;> exact .refl puts t
  · exact .refl puts t
  · next resolved hresolve =>
    have hplace : Tree.DiffersBy puts t (place t config (Job.dest config base ⟨t, file, resolved⟩) resolved).tree :=
      differsBy_place ⟨t, file, resolved⟩ (hstart.destination _) hresolve (hdest resolved hresolve)
        fun content => hholds resolved content hresolve
    dsimp only
    split <;> exact hplace

/-! ### A whole run -/

theorem Job.Done.tail {result : FileResult} (hfirst : (runFile config base t first).outcome = .ok result)
    (h : job.Done config base (runFile config base t first).tree rest) : job.Done config base t (first :: rest) :=
  ⟨h.1.tail hfirst, h.2⟩

theorem differsBy_resolveFiles (hstart : t.HasStart (config.outputDir.getD base)) :
    Tree.DiffersBy (outputs config base t files) t (resolveFiles config base t files).tree := by
  induction files generalizing t with
  | nil => exact .refl _ t
  | cons first rest ih =>
    have hstep : Tree.DiffersBy (outputs config base t (first :: rest)) t (runFile config base t first).tree := by
      refine differsBy_runFile hstart (fun resolved hresolve => ?_) fun resolved content hresolve hcontent => ?_
      · exact ⟨⟨t, first, resolved⟩, ⟨comesTo_head, hresolve⟩, rfl⟩
      · exact ⟨⟨t, first, resolved⟩, ⟨comesTo_head, hresolve⟩, rfl, hcontent⟩
    rw [resolveFiles]
    dsimp only
    split
    · exact hstep
    · next result hfirst =>
      refine hstep.trans ((ih (hstep.keepsDirs.hasStart hstart)).mono ?_ ?_)
      · intro p hp
        obtain ⟨job, hdone, rfl⟩ := hp
        exact ⟨job, hdone.tail hfirst, rfl⟩
      · intro p content hp
        obtain ⟨job, hdone, rfl, hcontent⟩ := hp
        exact ⟨job, hdone.tail hfirst, rfl, hcontent⟩

/-! ### Nothing but complete output -/

/-- A path above an output leads to the place, which is above the output in the tree unless double dots follow. -/
def LiesOnTheWay (config : Config) (base : Path) (t : Tree) (files : List Path) (after : Tree) (place : Place) : Prop :=
  ∃ job count, Job.Done config base t files job ∧ count < (job.dest config base).parts.length ∧
    after.reach ((job.dest config base).upTo count) = .ok place ∧
    (Path.up ∉ (job.dest config base).parts.drop count → place <+: (job.dest config base).normalize t.cwd)

/-- What a run may make of a tree: nothing but complete outputs and the directories that they need. -/
structure HasOnlyOutput (config : Config) (base : Path) (t : Tree) (files : List Path) (after : Tree) : Prop where
  /-- A file that is new or has other bytes is the complete output of a file that the run resolved. -/
  file : ∀ place content, after.get? place = some (.file content) → t.get? place ≠ some (.file content) →
    ∃ job, Job.Done config base t files job ∧ after.reach (job.dest config base) = .ok place ∧ job.Holds config content
  /-- No file is removed. -/
  kept : ∀ place content, t.get? place = some (.file content) → ∃ content, after.get? place = some (.file content)
  /-- The place of a file that failed is as it was, unless it is the place of another output or has become a directory on the way to one. -/
  failed : ∀ u file failure, ComesTo config base t files u file → (resolveFile u config base file).outcome = .error failure →
    ∀ place, t.resolve (destination base (base.within file) (config.outputDir.getD base)) = .ok place →
      after.get? place = t.get? place ∨
      (∃ job, Job.Done config base t files job ∧ after.reach (job.dest config base) = .ok place) ∨
      t.get? place = none ∧ after.get? place = some .directory ∧ LiesOnTheWay config base t files after place
  /-- Directories are only added, on the way to outputs. -/
  directory : ∀ place, after.get? place = some .directory →
    t.get? place = some .directory ∨ t.get? place = none ∧ LiesOnTheWay config base t files after place
  keptDirectory : ∀ place, t.get? place = some .directory → after.get? place = some .directory

theorem hasOnlyOutput_of_differsBy {after : Tree} (h : Tree.DiffersBy (outputs config base t files) t after) :
    HasOnlyOutput config base t files after := by
  have honTheWay : ∀ p count place, (outputs config base t files).dest p → count < p.parts.length →
      after.reach (p.upTo count) = .ok place → LiesOnTheWay config base t files after place := by
    intro p count place hp habove hreach
    obtain ⟨job, hdone, rfl⟩ := hp
    refine ⟨job, count, hdone, habove, hreach, fun hup => ?_⟩
    rw [← h.cwd]
    exact Tree.isPrefix_of_reach_upTo hreach hup
  refine ⟨fun place content hafter hbefore => ?_, fun place content hbefore => ?_, fun u file failure _ _ place _ => ?_,
    fun place hafter => ?_, h.keepsDirs.get?⟩
  · cases h.change place with
    | same hsame => exact absurd (hsame ▸ hafter) hbefore
    | directory p count _ _ _ _ hnew => cases hnew.symm.trans hafter
    | file p content' hholds hreach _ hnew =>
      obtain ⟨job, hdone, rfl, hcontent⟩ := hholds
      obtain rfl : content' = content := by simpa using hnew.symm.trans hafter
      exact ⟨job, hdone, hreach, hcontent⟩
  · cases h.change place with
    | same hsame => exact ⟨content, hsame.trans hbefore⟩
    | directory p count _ _ _ habsent _ => cases habsent.symm.trans hbefore
    | file p content' _ _ _ hnew => exact ⟨content', hnew⟩
  · cases h.change place with
    | same hsame => exact .inl hsame
    | directory p count hdest habove hreach habsent hnew =>
      exact .inr (.inr ⟨habsent, hnew, honTheWay p count place hdest habove hreach⟩)
    | file p content hholds hreach _ _ =>
      obtain ⟨job, hdone, rfl, -⟩ := hholds
      exact .inr (.inl ⟨job, hdone, hreach⟩)
  · cases h.change place with
    | same hsame => exact .inl (hsame ▸ hafter)
    | directory p count hdest habove hreach habsent _ => exact .inr ⟨habsent, honTheWay p count place hdest habove hreach⟩
    | file p content _ _ _ hnew => cases hnew.symm.trans hafter

/-- However a run ends, it leaves nothing but complete output, and no temporary file that its writing makes on the way. -/
theorem resolveFiles_leaves_only_output (hcwd : t.HasCwd) (config : Config) (base : Path) (files : List Path) :
    HasOnlyOutput config base t files (resolveFiles config base t files).tree ∧
      ∀ (u : Tree) (p : Path) (lines : List Text) (suffix : Text), u.HasCwd → Tree.IsSuffix suffix →
        (∀ place, (u.makeDirs p.parent).1.reach ((u.makeDirs p.parent).1.temporaryNamed p suffix) = .ok place →
          (u.makeDirs p.parent).1.get? place = none) →
        (u.writeLinesStaged suffix p lines config.encoding).2 = (u.writeLines p lines config.encoding).2 ∧
          Tree.SameView (u.writeLines p lines config.encoding).1 (u.writeLinesStaged suffix p lines config.encoding).1 := by
  refine ⟨hasOnlyOutput_of_differsBy (differsBy_resolveFiles (hcwd.hasStart _)), ?_⟩
  intro u p lines suffix hu hsuffix hfree
  exact Tree.sameView_writeLinesStaged hu hsuffix hfree

/-! ### Directories in unexpected places -/

/-- The output for the absolute `/a/x`, which fails, would stand where the one for `x/y` needs a directory. -/
def clashingTree : Tree :=
  ⟨[], .folder "a".toList (.file "x".toList (Charset.Utf8.encode "[x:9]\n".toList) .empty)
    (.folder "b".toList (.folder "x".toList (.file "y".toList (Charset.Utf8.encode "a\n".toList) .empty) .empty) .empty)⟩

def clashingRun : Batch Run :=
  resolveFiles { outputDir := some (Path.ofText "o/z/..".toList), keepGoing := true } (Path.ofText "b".toList) clashingTree
    (["/a/x", "x/y"].map fun file => Path.ofText file.toList)

theorem hasOnlyOutput_clashingRun :
    HasOnlyOutput { outputDir := some (Path.ofText "o/z/..".toList), keepGoing := true } (Path.ofText "b".toList) clashingTree
      (["/a/x", "x/y"].map fun file => Path.ofText file.toList) clashingRun.tree :=
  (resolveFiles_leaves_only_output (by rfl) _ _ _).1

theorem exists_directory_for_failed :
    ∃ run complaint, clashingRun.outcome = .ok run ∧ run.failures = [(Path.ofText "/a/x".toList, complaint)] ∧
      (clashingTree.resolve (Path.ofText "o/z/../x".toList) = .ok ["o".toList, "x".toList] ∧
        destination (Path.ofText "b".toList) (Path.ofText "/a/x".toList) (Path.ofText "o/z/..".toList) =
          Path.ofText "o/z/../x".toList ∧
        (∀ placed ∈ run.files, clashingRun.tree.reach placed.destination ≠ .ok ["o".toList, "x".toList]) ∧
        clashingTree.get? ["o".toList, "x".toList] = none ∧
        clashingRun.tree.get? ["o".toList, "x".toList] = some .directory) ∧
      (∀ placed ∈ run.files, ¬ ["o".toList, "z".toList] <+: placed.destination.normalize clashingTree.cwd) ∧
      clashingTree.get? ["o".toList, "z".toList] = none ∧
      clashingRun.tree.get? ["o".toList, "z".toList] = some .directory := by
  refine ⟨⟨[.failed (Path.ofText "/a/x".toList) ⟨.lineOutOfRange "x".toList 9 1, some (Path.ofText "/a/x".toList)⟩,
      .placed ⟨⟨Path.ofText "b/x/y".toList, ["a".toList], false, 0, []⟩, Path.ofText "o/z/../x/y".toList⟩]⟩,
    ⟨.lineOutOfRange "x".toList 9 1, some (Path.ofText "/a/x".toList)⟩, ?_⟩
  decide +kernel

end Quotation
