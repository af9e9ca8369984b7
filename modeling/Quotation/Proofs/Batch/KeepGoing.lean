import Quotation.Proofs.Resolution.Naming
import Quotation.Resolution.Batch

/-!
# Going on after failures

A run that goes on after failures treats every file of its list, in order (`interleaves_of_resolveFiles`). A run that stops does the same up to its first failure and nothing after it. So the two are the same run where nothing fails (`resolveFiles_stopping_eq`), and else the stopping one leaves the tree in which the other one met its first failure (`stopsAt_of_resolveFiles`).
-/

namespace Quotation

open Outcome

/-- A list whose elements are those of two others, each of them in its order. -/
inductive Interleaves {α : Type} : List α → List α → List α → Prop where
  | nil : Interleaves [] [] []
  | left {a : α} {xs ys zs : List α} : Interleaves xs ys zs → Interleaves (a :: xs) ys (a :: zs)
  | right {a : α} {xs ys zs : List α} : Interleaves xs ys zs → Interleaves xs (a :: ys) (a :: zs)

theorem Interleaves.sublist {α : Type} {xs ys zs : List α} (h : Interleaves xs ys zs) : xs.Sublist zs := by
  induction h with
  | nil => exact .slnil
  | left _ ih => exact ih.cons_cons _
  | right _ ih => exact ih.cons _

def Config.stopping (config : Config) : Config := { config with keepGoing := false }

def Config.goingOn (config : Config) : Config := { config with keepGoing := true }

variable {t : Tree} {config : Config} {base file : Path} {rest : List Path}

/-! ### Results of a list -/

namespace Run

theorem files_cons_placed (placed : Placed) (results : List FileResult) :
    (Run.mk (.placed placed :: results)).files = placed :: (Run.mk results).files := rfl

theorem files_cons_failed (source : Path) (complaint : Complaint) (results : List FileResult) :
    (Run.mk (.failed source complaint :: results)).files = (Run.mk results).files := rfl

theorem failures_cons_placed (placed : Placed) (results : List FileResult) :
    (Run.mk (.placed placed :: results)).failures = (Run.mk results).failures := rfl

theorem failures_cons_failed (source : Path) (complaint : Complaint) (results : List FileResult) :
    (Run.mk (.failed source complaint :: results)).failures = (source, complaint) :: (Run.mk results).failures := rfl

end Run

theorem resolveFiles_cons_of_ok {result : FileResult} (h : (runFile config base t file).outcome = .ok result) :
    resolveFiles config base t (file :: rest) =
      ⟨(resolveFiles config base (runFile config base t file).tree rest).tree,
        (runFile config base t file).log ++ (resolveFiles config base (runFile config base t file).tree rest).log,
        (resolveFiles config base (runFile config base t file).tree rest).outcome.map fun run => ⟨result :: run.results⟩⟩ := by
  rw [resolveFiles, h]

theorem resolveFiles_cons_of_error {failure : Failure} (h : (runFile config base t file).outcome = .error failure) :
    resolveFiles config base t (file :: rest) =
      ⟨(runFile config base t file).tree, (runFile config base t file).log, .error failure⟩ := by
  rw [resolveFiles, h]

/-- A run that returns has treated its first file and then the others, in the tree that the first one has left. -/
theorem resolveFiles_cons_eq_ok_iff {run : Run} :
    (resolveFiles config base t (file :: rest)).outcome = .ok run ↔
      ∃ result others, (runFile config base t file).outcome = .ok result ∧
        (resolveFiles config base (runFile config base t file).tree rest).outcome = .ok others ∧
        run = ⟨result :: others.results⟩ := by
  cases hfirst : (runFile config base t file).outcome with
  | error failure => simp [resolveFiles_cons_of_error hfirst]
  | ok result =>
    rw [resolveFiles_cons_of_ok hfirst, map_eq_ok_iff]
    constructor
    · rintro ⟨others, hothers, rfl⟩
      exact ⟨result, others, rfl, hothers, rfl⟩
    · rintro ⟨same, others, hsame, hothers, rfl⟩
      obtain rfl := Except.ok.inj hsame
      exact ⟨others, hothers, rfl⟩

/-! ### One file -/

theorem source_of_resolveFile {resolved : Resolved} (h : (resolveFile t config base file).outcome = .ok resolved) :
    resolved.source = base.within file := by
  rw [resolveFile, mapError_eq_ok_iff, map_eq_ok_iff] at h
  obtain ⟨lines, -, rfl⟩ := h
  rfl

/-- A file that is placed has been resolved and put where its output goes. -/
theorem exists_of_placed {placed : Placed} (h : (runFile config base t file).outcome = .ok (.placed placed)) :
    (resolveFile t config base file).outcome = .ok placed.resolved ∧
      placed.destination = destination base placed.resolved.source (config.outputDir.getD base) ∧
      (place t config placed.destination placed.resolved).outcome = .ok () ∧
      (runFile config base t file).tree = (place t config placed.destination placed.resolved).tree := by
  rw [runFile] at h ⊢
  dsimp only at h ⊢
  split at h
  · split at h <;> cases h
  · cases h
  · next resolved hresolve =>
    split at h
    · cases h
    · next done hplace =>
      obtain rfl := FileResult.placed.inj (Except.ok.inj h)
      exact ⟨hresolve, rfl, hplace, rfl⟩

theorem runFile_of_place {resolved : Resolved} {dest : Path} (hresolve : (resolveFile t config base file).outcome = .ok resolved)
    (hdest : dest = destination base resolved.source (config.outputDir.getD base))
    (hplace : (place t config dest resolved).outcome = .ok ()) :
    (runFile config base t file).outcome = .ok (.placed ⟨resolved, dest⟩) ∧
      (runFile config base t file).tree = (place t config dest resolved).tree := by
  subst hdest
  rw [runFile]
  dsimp only
  rw [hresolve]
  dsimp only
  rw [hplace]
  exact ⟨rfl, rfl⟩

theorem runFile_of_place_error {resolved : Resolved} {dest : Path} {failure : Failure}
    (hresolve : (resolveFile t config base file).outcome = .ok resolved)
    (hdest : dest = destination base resolved.source (config.outputDir.getD base))
    (hplace : (place t config dest resolved).outcome = .error failure) :
    (runFile config base t file).outcome = .error failure ∧
      (runFile config base t file).tree = (place t config dest resolved).tree := by
  subst hdest
  rw [runFile]
  dsimp only
  rw [hresolve]
  dsimp only
  rw [hplace]
  exact ⟨rfl, rfl⟩

theorem source_of_placed {placed : Placed} (h : (runFile config base t file).outcome = .ok (.placed placed)) :
    placed.resolved.source = base.within file := source_of_resolveFile (exists_of_placed h).1

theorem exists_of_failed {source : Path} {complaint : Complaint}
    (h : (runFile config base t file).outcome = .ok (.failed source complaint)) :
    (resolveFile t config base file).outcome = .error (.citation complaint) ∧ (runFile config base t file).tree = t ∧
      source = base.within file ∧ complaint.file = some (base.within file) := by
  rw [runFile] at h ⊢
  dsimp only at h ⊢
  split at h
  · next c hresolve =>
    split at h
    · next hgoing =>
      obtain ⟨hsource, rfl⟩ := FileResult.failed.inj (Except.ok.inj h)
      have hfile : c.file = some (base.within file) := file_of_resolveFile hresolve
      refine ⟨hresolve, ?_, ?_, hfile⟩
      · rw [if_pos hgoing]
      · rw [← hsource, hfile]
        rfl
    · cases h
  · cases h
  · split at h <;> cases h

/-! ### Two configurations -/

theorem resolveQuote_keepGoing (flag : Bool) (budget : Nat) :
    resolveQuote t { config with keepGoing := flag } budget = resolveQuote t config budget := by
  induction budget with
  | zero => rfl
  | succ budget ih =>
    funext marker ctx quote
    rw [resolveQuote, resolveQuote, ih]
    rfl

theorem resolveFile_keepGoing (flag : Bool) :
    resolveFile t { config with keepGoing := flag } base file = resolveFile t config base file := by
  have hnested : resolveNested t { config with keepGoing := flag } = resolveNested t config :=
    resolveQuote_keepGoing flag config.maxDepth.toNat
  have hsource : resolveSource t { config with keepGoing := flag } base (base.within file) =
      resolveSource t config base (base.within file) := by
    rw [resolveSource, resolveSource, hnested]
    rfl
  rw [resolveFile, resolveFile, hsource]

theorem runFile_stopping_of_placed {placed : Placed} (h : (runFile config.goingOn base t file).outcome = .ok (.placed placed)) :
    runFile config.stopping base t file = runFile config.goingOn base t file := by
  have hgoing : resolveFile t config.goingOn base file = resolveFile t config base file := resolveFile_keepGoing true
  have hstopping : resolveFile t config.stopping base file = resolveFile t config base file := resolveFile_keepGoing false
  rw [runFile, hgoing] at h
  rw [runFile, runFile, hgoing, hstopping]
  dsimp only at h ⊢
  cases hresolve : (resolveFile t config base file).outcome with
  | ok resolved => rfl
  | error failure =>
    cases failure with
    | citation complaint => simp [hresolve, Config.goingOn] at h
    | fault fault => rfl

theorem runFile_stopping_of_failed {source : Path} {complaint : Complaint}
    (h : (runFile config.goingOn base t file).outcome = .ok (.failed source complaint)) :
    (runFile config.stopping base t file).outcome = .error (.citation complaint) ∧
      (runFile config.stopping base t file).tree = t := by
  have hgoing : resolveFile t config.goingOn base file = resolveFile t config base file := resolveFile_keepGoing true
  have hstopping : resolveFile t config.stopping base file = resolveFile t config base file := resolveFile_keepGoing false
  obtain ⟨hresolve, -, -, -⟩ := exists_of_failed h
  rw [hgoing] at hresolve
  rw [runFile, hstopping, hresolve]
  exact ⟨rfl, rfl⟩

/-! ### Whole runs -/

theorem interleaves_of_resolveFiles {files : List Path} {run : Run} (h : (resolveFiles config base t files).outcome = .ok run) :
    Interleaves (run.files.map (·.resolved.source)) (run.failures.map (·.1)) (files.map base.within) := by
  induction files generalizing t run with
  | nil =>
    obtain rfl := Except.ok.inj h
    exact .nil
  | cons file rest ih =>
    obtain ⟨result, others, hfirst, hothers, rfl⟩ := resolveFiles_cons_eq_ok_iff.1 h
    cases result with
    | placed placed =>
      rw [Run.files_cons_placed, Run.failures_cons_placed, List.map_cons, List.map_cons, source_of_placed hfirst]
      exact .left (ih hothers)
    | failed source complaint =>
      obtain ⟨-, -, rfl, -⟩ := exists_of_failed hfirst
      rw [Run.files_cons_failed, Run.failures_cons_failed, List.map_cons, List.map_cons]
      exact .right (ih hothers)

theorem file_of_mem_failures {files : List Path} {run : Run} (h : (resolveFiles config base t files).outcome = .ok run)
    {failure : Path × Complaint} (hfailure : failure ∈ run.failures) : failure.2.file = some failure.1 := by
  induction files generalizing t run with
  | nil =>
    obtain rfl := Except.ok.inj h
    cases hfailure
  | cons file rest ih =>
    obtain ⟨result, others, hfirst, hothers, rfl⟩ := resolveFiles_cons_eq_ok_iff.1 h
    cases result with
    | placed placed => exact ih hothers hfailure
    | failed source complaint =>
      rw [Run.failures_cons_failed, List.mem_cons] at hfailure
      obtain rfl | hfailure := hfailure
      · obtain ⟨-, -, rfl, hfile⟩ := exists_of_failed hfirst
        exact hfile
      · exact ih hothers hfailure

theorem resolveFiles_stopping_eq {files : List Path} {run : Run}
    (h : (resolveFiles config.goingOn base t files).outcome = .ok run) (hnone : run.failures = []) :
    resolveFiles config.stopping base t files = resolveFiles config.goingOn base t files := by
  induction files generalizing t run with
  | nil => rfl
  | cons file rest ih =>
    obtain ⟨result, others, hfirst, hothers, rfl⟩ := resolveFiles_cons_eq_ok_iff.1 h
    cases result with
    | placed placed =>
      have hsame := runFile_stopping_of_placed hfirst
      rw [resolveFiles_cons_of_ok hfirst, resolveFiles_cons_of_ok (hsame ▸ hfirst), hsame, ih hothers hnone]
    | failed source complaint => simp [Run.failures_cons_failed] at hnone

/-- The run that stops ends with the complaint about `source`: the run that goes on gets through all files before it without a failure, and the two leave the same tree there. -/
def StopsAt (config : Config) (base : Path) (t : Tree) (files : List Path) (run : Run) (source : Path) (complaint : Complaint) :
    Prop :=
  ∃ earlier file later before, files = earlier ++ file :: later ∧ source = base.within file ∧
    (resolveFiles config.goingOn base t earlier).outcome = .ok before ∧ before.failures = [] ∧ before.files <+: run.files ∧
    (resolveFiles config.stopping base t files).outcome = .error (.citation complaint) ∧
    (resolveFiles config.stopping base t files).tree = (resolveFiles config.goingOn base t earlier).tree

theorem stopsAt_of_resolveFiles {files : List Path} {run : Run} {source : Path} {complaint : Complaint}
    {others : List (Path × Complaint)} (h : (resolveFiles config.goingOn base t files).outcome = .ok run)
    (hfailures : run.failures = (source, complaint) :: others) : StopsAt config base t files run source complaint := by
  induction files generalizing t run with
  | nil =>
    obtain rfl := Except.ok.inj h
    cases hfailures
  | cons file rest ih =>
    obtain ⟨result, remaining, hfirst, hremaining, rfl⟩ := resolveFiles_cons_eq_ok_iff.1 h
    cases result with
    | failed first error =>
      rw [Run.failures_cons_failed, List.cons.injEq, Prod.mk.injEq] at hfailures
      obtain ⟨⟨rfl, rfl⟩, -⟩ := hfailures
      obtain ⟨-, -, hsource, -⟩ := exists_of_failed hfirst
      obtain ⟨hstop, htree⟩ := runFile_stopping_of_failed hfirst
      refine ⟨[], file, rest, ⟨[]⟩, rfl, hsource, rfl, rfl, List.nil_prefix, ?_, ?_⟩
      · rw [resolveFiles_cons_of_error hstop]
      · rw [resolveFiles_cons_of_error hstop]
        exact htree
    | placed placed =>
      obtain ⟨earlier, failing, later, before, rfl, hsource, hbefore, hnone, hbelow, hstop, htree⟩ := ih hremaining hfailures
      have hsame := runFile_stopping_of_placed hfirst
      refine ⟨file :: earlier, failing, later, ⟨.placed placed :: before.results⟩, rfl, hsource, ?_, hnone, ?_, ?_, ?_⟩
      · exact resolveFiles_cons_eq_ok_iff.2 ⟨.placed placed, before, hfirst, hbefore, rfl⟩
      · rw [Run.files_cons_placed, Run.files_cons_placed]
        exact List.cons_prefix_cons.2 ⟨rfl, hbelow⟩
      · rw [resolveFiles_cons_of_ok (hsame ▸ hfirst), hsame, hstop]
        rfl
      · rw [resolveFiles_cons_of_ok (hsame ▸ hfirst), resolveFiles_cons_of_ok hfirst, hsame]
        exact htree

/-- A run that goes on loses no file and keeps their order, and a run that stops agrees with it up to its first failure. -/
theorem resolveFiles_goingOn_agrees {files : List Path} {run : Run}
    (h : (resolveFiles config.goingOn base t files).outcome = .ok run) :
    Interleaves (run.files.map (·.resolved.source)) (run.failures.map (·.1)) (files.map base.within) ∧
      (∀ failure ∈ run.failures, failure.2.file = some failure.1) ∧ (run.ok = true ↔ run.failures = []) ∧
      (run.failures = [] → resolveFiles config.stopping base t files = resolveFiles config.goingOn base t files) ∧
      ∀ source complaint others, run.failures = (source, complaint) :: others →
        StopsAt config base t files run source complaint := by
  refine ⟨interleaves_of_resolveFiles h, fun failure => file_of_mem_failures h, List.isEmpty_iff, ?_, ?_⟩
  · exact resolveFiles_stopping_eq h
  · intro source complaint others hfailures
    exact stopsAt_of_resolveFiles h hfailures

def failingTree : Tree :=
  ⟨[], .file "c.md".toList (Charset.Utf8.encode "a [e]\n".toList)
    (.file "d.md".toList (Charset.Utf8.encode "[e:9]\n".toList)
      (.file "e".toList (Charset.Utf8.encode "b\n".toList) .empty))⟩

theorem stopsAt_second_of_three :
    ∃ run, StopsAt {} Path.here failingTree (["c.md", "d.md", "e"].map fun name => Path.ofText name.toList) run
      (Path.ofText "d.md".toList) ⟨.lineOutOfRange "e".toList 9 1, some (Path.ofText "d.md".toList)⟩ := by
  have hrun : (resolveFiles (Config.goingOn {}) Path.here failingTree
      (["c.md", "d.md", "e"].map fun name => Path.ofText name.toList)).outcome =
      .ok ⟨[.placed ⟨⟨Path.ofText "c.md".toList, ["a b".toList], true, 1, []⟩, Path.ofText "c.md".toList⟩,
        .failed (Path.ofText "d.md".toList) ⟨.lineOutOfRange "e".toList 9 1, some (Path.ofText "d.md".toList)⟩,
        .placed ⟨⟨Path.ofText "e".toList, ["b".toList], false, 0, []⟩, Path.ofText "e".toList⟩]⟩ := by
    decide +kernel
  exact ⟨_, (resolveFiles_goingOn_agrees hrun).2.2.2.2 _ _ _ rfl⟩

end Quotation
