import Quotation.Proofs.Batch.InPlace
import Quotation.Proofs.Tree.Again

/-!
# Running again

A run with an output directory of its own leaves its sources alone, and what it puts out stays where it is until the run ends. So the same run, in the tree that the first one has left, resolves each file as before and puts it where it is already (`resolveFiles_again`). This is so however the first run has ended: where it broke off, nothing has changed since, and the step that failed fails again.
-/

namespace Quotation

open Outcome

variable {t u w : Tree} {config : Config} {base out file : Path} {files rest : List Path} {dir reached : Place} {content : Bytes}

/-! ### Trees written to -/

namespace Tree

/-- Nothing has been written but in a directory, and everything that was there is there. -/
structure WrittenInto (dir : Place) (t u : Tree) : Prop where
  outside : SameOutside dir t u
  keepsDirs : KeepsDirs t u
  there : ∀ place, (t.get? place).isSome → (u.get? place).isSome
  /-- A file in the place of the directory stays what it is. -/
  file : ∀ content, u.get? dir = some (.file content) ↔ t.get? dir = some (.file content)

theorem WrittenInto.trans (h : WrittenInto dir t u) (h' : WrittenInto dir u w) : WrittenInto dir t w := by
  refine ⟨⟨h'.outside.cwd.trans h.outside.cwd, fun place hplace => ?_⟩, h.keepsDirs.trans h'.keepsDirs, ?_, ?_⟩
  · exact (h'.outside.get? place hplace).trans (h.outside.get? place hplace)
  · exact fun place hplace => h'.there place (h.there place hplace)
  · exact fun content => (h'.file content).trans (h.file content)

theorem SameView.writtenInto (h : SameView t u) (dir : Place) : WrittenInto dir t u :=
  ⟨⟨h.cwd, fun place _ => h.get? place⟩, h.keepsDirs, fun place hplace => by rwa [h.get?], fun content => by rw [h.get?]⟩

theorem WrittenInto.file_iff {place : Place} (h : WrittenInto dir t u) (hplace : ¬ dir <+: place ∨ dir = place) (content : Bytes) :
    u.get? place = some (.file content) ↔ t.get? place = some (.file content) := by
  obtain houtside | rfl := hplace
  · rw [h.outside.get? place houtside]
  · exact h.file content

theorem HasAbove.writtenInto (h : t.HasAbove out) (hu : WrittenInto dir t u) : u.HasAbove out := by
  intro count hcount
  obtain ⟨place, hwalk, hsome⟩ := h count hcount
  have hstart : u.startOf out = t.startOf out := by rw [startOf, startOf, hu.keepsDirs.cwd]
  exact ⟨place, by rw [hstart]; exact walk_of_keepsDirs hu.keepsDirs hwalk, hu.there place hsome⟩

theorem writtenInto_of_differsBy {puts : Puts} (h : DiffersBy puts t u) (habove : t.HasAbove out)
    (hdest : ∀ p, puts.dest p → ∃ q : Path, q.GoesDown ∧ q.parts ≠ [] ∧ p = out.within q)
    (hholds : ∀ p content, puts.holds p content → puts.dest p) : WrittenInto (out.normalize t.cwd) t u := by
  have houtside : SameOutside (out.normalize t.cwd) t u := by
    refine sameOutside_of_differsBy h habove (fun p hp => ?_) hholds
    obtain ⟨q, ⟨hanchor, hup, -⟩, -, rfl⟩ := hdest p hp
    exact ⟨q.parts, by rw [← hanchor], hup⟩
  refine ⟨houtside, h.keepsDirs, fun place hsome => ?_, fun content => ?_⟩
  · cases h.change place with
    | same hsame => rwa [hsame]
    | directory p count _ _ _ _ hnew => simp [hnew]
    | file p content _ _ _ hnew => simp [hnew]
  · cases h.change (out.normalize t.cwd) with
    | same hsame => rw [hsame]
    | directory p count _ _ _ habsent hnew => simp [habsent, hnew]
    | file p bytes hp hreach _ _ =>
      obtain ⟨q, hdown, hne, rfl⟩ := hdest p (hholds p bytes hp)
      have hplace := normalize_of_reach hreach
      rw [h.cwd, hdown.normalize_within] at hplace
      exact absurd (List.append_right_eq_self.1 hplace) hne

theorem walk_eq_of_isSome (h : KeepsDirs t u) {start : Place} {names : List Text} (hup : Path.up ∉ names) (hstay : Path.stay ∉ names)
    (hsome : (t.get? (start ++ names)).isSome) : u.walk start names = t.walk start names := by
  induction names generalizing start with
  | nil => rfl
  | cons name rest ih =>
    obtain ⟨hup, hups⟩ : Path.up ≠ name ∧ Path.up ∉ rest := by simpa using hup
    obtain ⟨hstay, hstays⟩ : Path.stay ≠ name ∧ Path.stay ∉ rest := by simpa using hstay
    have hdir : t.get? start = some .directory := by
      by_contra hdir
      have hnone := t.get?_of_isPrefix hdir (List.prefix_append start (name :: rest)) (by simp)
      simp [hnone] at hsome
    rw [walk, walk, hdir, h.get? start hdir]
    dsimp only
    rw [if_neg (Ne.symm hup), if_neg (Ne.symm hup), if_neg (Ne.symm hstay), if_neg (Ne.symm hstay)]
    split
    · rfl
    · exact ih hups hstays (by simpa using hsome)

/-- A file below a directory that is there reads the same once other places have been written to. -/
theorem entry_within_of_writtenInto (h : WrittenInto dir t u) (hbase : t.isDir base = .ok true) (hfile : file.GoesDown)
    (hget : t.get? (base.normalize t.cwd ++ file.parts) = some (.file content))
    (hplace : ¬ dir <+: base.normalize t.cwd ++ file.parts ∨ dir = base.normalize t.cwd ++ file.parts) :
    u.entry (base.within file) = t.entry (base.within file) := by
  have hnormal := hfile.normalize_within t.cwd base
  obtain ⟨hanchor, hup, hstay⟩ := hfile
  have hwithin : base.within file = ⟨base.anchor, base.parts ++ file.parts⟩ := by
    rw [Path.within, Path.isAbsolute, hanchor]
    rfl
  obtain ⟨-, -, hwalk⟩ := reach_eq_ok_iff.1 (exists_reach_of_isDir hbase).1
  have hstart : u.startOf (base.within file) = t.startOf (base.within file) := by rw [startOf, startOf, h.keepsDirs.cwd]
  have hwalks : u.walk (t.startOf (base.within file)) (base.within file).parts =
      t.walk (t.startOf (base.within file)) (base.within file).parts := by
    have hfirst : t.walk (t.startOf (base.within file)) base.parts = .ok (base.normalize t.cwd) := by
      rw [hwithin]
      exact hwalk
    rw [hwithin] at hfirst ⊢
    dsimp only
    rw [walk_append, walk_append, hfirst, walk_of_keepsDirs h.keepsDirs hfirst]
    exact walk_eq_of_isSome h.keepsDirs hup hstay (by rw [hget]; rfl)
  have hreach : u.reach (base.within file) = t.reach (base.within file) := by rw [reach_eq, reach_eq, hstart, hwalks]
  rw [entry, entry, hreach]
  cases hplace' : t.reach (base.within file) with
  | error fault => rfl
  | ok reached =>
    obtain rfl := normalize_of_reach hplace'
    refine entryAt_of_get?_eq ?_
    rw [hnormal, hget]
    exact (h.file_iff hplace content).2 hget

theorem hasWay_within (habove : t.HasAbove out) (hfile : file.GoesDown) (hread : t.read (base.within file) = .ok content) :
    t.HasWay out.parts.length (out.within file) := by
  obtain ⟨place, hreach, -⟩ := readAt_eq_ok_iff.1 hread
  obtain ⟨-, -, hwalk⟩ := reach_eq_ok_iff.1 hreach
  obtain ⟨anchor, names⟩ := file
  obtain ⟨rfl, hup, hstay⟩ := hfile
  rw [Path.within_of_here] at hwalk
  rw [Path.within_of_here]
  refine ⟨fun count hcount => ?_, fun name hname => ?_⟩
  · obtain ⟨place, hplace, hsome⟩ := habove count hcount
    refine ⟨place, ?_, hsome⟩
    dsimp only
    rw [List.take_append_of_le_length (Nat.le_of_lt hcount)]
    exact hplace
  · dsimp only at hname
    rw [List.drop_left] at hname
    have hneUp : name ≠ Path.up := fun heq => hup (heq ▸ hname)
    have hneStay : name ≠ Path.stay := fun heq => hstay (heq ▸ hname)
    exact ⟨hneUp, hneStay, size_le_of_walk hwalk name (List.mem_append_right _ hname) hneUp hneStay⟩

end Tree

/-! ### Steps that are done again -/

/-- Done again in the tree `w`, a step ends and logs the same and changes nothing that shows. -/
structure Batch.Repeats {α : Type} (first : Batch α) (w : Tree) (again : Batch α) : Prop where
  view : Tree.SameView w again.tree
  log : again.log = first.log
  outcome : again.outcome = first.outcome

theorem place_again {resolved : Resolved} {dest : Path} {known : Nat} (hcwd : t.HasCwd) (hsame : w.cwd = t.cwd)
    (hway : t.HasWay known dest) (hread : t.read resolved.source = .ok content)
    (hsource : w.entry resolved.source = t.entry resolved.source) (hw : Tree.KeepsDirs (place t config dest resolved).tree w)
    (hfile : Tree.KeepsFile (place t config dest resolved).tree w (dest.normalize t.cwd))
    (herror : (place t config dest resolved).outcome ≠ .ok () → Tree.SameView (place t config dest resolved).tree w) :
    (place t config dest resolved).Repeats w (place w config dest resolved) := by
  have hresolve : w.resolve = t.resolve := Tree.resolve_eq_of_cwd hsame
  have hfailure : ∀ outcome : Except Fault Unit, outcome ≠ .ok () → outcome.mapError Failure.fault ≠ .ok () := by
    intro outcome hne
    cases outcome with
    | ok done => exact absurd rfl hne
    | error fault => simp [Except.mapError]
  rw [place] at hw hfile herror ⊢
  rw [place, hresolve]
  split
  · next hchanged =>
    rw [if_pos hchanged] at hw hfile herror
    obtain ⟨after, hagain, hview⟩ := Tree.writeLines_again hcwd hway rfl hw hfile fun hne => herror (hfailure _ hne)
    rw [hagain]
    exact ⟨hview, rfl, rfl⟩
  · next hchanged =>
    rw [if_neg hchanged] at hw hfile herror
    split
    · next target source htarget hsource' =>
      rw [htarget, hsource'] at hw hfile herror
      dsimp only at hw hfile herror
      split
      · exact ⟨.refl w, rfl, rfl⟩
      · next hne =>
        rw [if_neg hne] at hw hfile herror
        obtain ⟨after, hagain, hview⟩ := Tree.copyFile_again hcwd hway hread hsource rfl hw hfile fun hne => herror (hfailure _ hne)
        rw [hagain]
        exact ⟨hview, rfl, rfl⟩
    · exact ⟨.refl w, rfl, rfl⟩
    · exact ⟨.refl w, rfl, rfl⟩

theorem runFile_again (hcwd : t.HasCwd) (hsame : w.cwd = t.cwd) (hout : config.outputDir = some out) (habove : t.HasAbove out)
    (hfile : file.GoesDown) (hsource : w.entry (base.within file) = t.entry (base.within file))
    (hresolve : resolveFile w config base file = resolveFile t config base file)
    (hw : Tree.KeepsDirs (runFile config base t file).tree w)
    (hkeeps : Tree.KeepsFile (runFile config base t file).tree w (out.normalize t.cwd ++ file.parts))
    (herror : ∀ failure, (runFile config base t file).outcome = .error failure →
      Tree.SameView (runFile config base t file).tree w) :
    (runFile config base t file).Repeats w (runFile config base w file) := by
  rw [runFile] at hw hkeeps herror ⊢
  rw [runFile, hresolve]
  dsimp only at hw hkeeps herror ⊢
  cases houtcome : (resolveFile t config base file).outcome with
  | error failure =>
    rw [houtcome] at hw hkeeps herror
    cases failure with
    | fault fault => exact ⟨.refl w, rfl, rfl⟩
    | citation complaint =>
      dsimp only
      split <;> exact ⟨.refl w, rfl, rfl⟩
  | ok resolved =>
    rw [houtcome] at hw hkeeps herror
    have hdest : destination base resolved.source (config.outputDir.getD base) = out.within file := by
      rw [source_of_resolveFile houtcome, hout, Option.getD_some, destination_of_goesDown hfile]
    obtain ⟨content, hread⟩ := read_source_of_resolveFile houtcome
    have hway : t.HasWay out.parts.length (out.within file) :=
      Tree.hasWay_within habove hfile (source_of_resolveFile houtcome ▸ hread)
    have hnormal : (out.within file).normalize t.cwd = out.normalize t.cwd ++ file.parts := hfile.normalize_within t.cwd out
    dsimp only at hw hkeeps herror ⊢
    rw [hdest] at hw hkeeps herror ⊢
    have hplace : (place t config (out.within file) resolved).Repeats w (place w config (out.within file) resolved) := by
      refine place_again hcwd hsame hway hread (source_of_resolveFile houtcome ▸ hsource) ?_ ?_ fun hne => ?_
      · split at hw <;> exact hw
      · rw [hnormal]
        split at hkeeps <;> exact hkeeps
      · split at herror
        · next failure hfailure => exact herror failure rfl
        · next done hdone => exact absurd hdone hne
    rw [hplace.outcome, hplace.log]
    split <;> exact ⟨hplace.view, rfl, rfl⟩

/-! ### A run that is done again -/

/-- A file is below the base directory, but not inside the directory `dir`. -/
structure StandsOutside (dir : Place) (t : Tree) (base file : Path) : Prop where
  goesDown : file.GoesDown
  there : ∃ content, t.get? (base.normalize t.cwd ++ file.parts) = some (.file content)
  outside : ¬ dir <+: base.normalize t.cwd ++ file.parts ∨ dir = base.normalize t.cwd ++ file.parts

/-- Nothing is looked up in the directory `dir` for any marker that a run meets. -/
def NeverLooksInto (dir : Place) (config : Config) (base : Path) (t : Tree) (files : List Path) : Prop :=
  ∀ u file, ComesTo config base t files u file → ∀ ctx body, MeetsIn u config base (base.within file) ctx body →
    ∀ p ∈ Reading.probed u ctx body, u.KeepsClear dir p

theorem neverLooksInto_singleton (h : LooksElsewhere dir t config base file) : NeverLooksInto dir config base t [file] := by
  rintro u other hcomes
  obtain ⟨rfl, rfl⟩ := comesTo_singleton hcomes
  exact h.probed

theorem StandsOutside.writtenInto (h : StandsOutside dir t base file) (hu : Tree.WrittenInto dir t u) :
    StandsOutside dir u base file := by
  obtain ⟨content, hget⟩ := h.there
  have hcwd := hu.keepsDirs.cwd
  exact ⟨h.goesDown, ⟨content, by rw [hcwd]; exact (hu.file_iff h.outside content).2 hget⟩, by rw [hcwd]; exact h.outside⟩

theorem StandsOutside.parts_ne_nil (h : StandsOutside dir t base file) (hbase : t.isDir base = .ok true) : file.parts ≠ [] := by
  intro hnil
  obtain ⟨content, hget⟩ := h.there
  rw [hnil, List.append_nil, (Tree.exists_reach_of_isDir hbase).2] at hget
  cases hget

/-- A run writes nothing but into its output directory. -/
theorem writtenInto_of_resolveFiles (hcwd : t.HasCwd) (hout : config.outputDir = some out) (habove : t.HasAbove out)
    (hbase : t.isDir base = .ok true) (hfiles : ∀ file ∈ files, StandsOutside (out.normalize t.cwd) t base file) :
    Tree.WrittenInto (out.normalize t.cwd) t (resolveFiles config base t files).tree := by
  refine Tree.writtenInto_of_differsBy (differsBy_resolveFiles (hcwd.hasStart _)) habove ?_ ?_
  · rintro p ⟨job, hdone, rfl⟩
    obtain ⟨hmem, hdest⟩ := hdone.dest_eq fun file hfile => (hfiles file hfile).goesDown
    rw [hout, Option.getD_some] at hdest
    exact ⟨job.file, (hfiles _ hmem).goesDown, (hfiles _ hmem).parts_ne_nil hbase, hdest⟩
  · rintro p content ⟨job, hdone, hdest, -⟩
    exact ⟨job, hdone, hdest⟩

theorem tree_resolveFiles_singleton (config : Config) (base : Path) (t : Tree) (file : Path) :
    (resolveFiles config base t [file]).tree = (runFile config base t file).tree := by
  rw [resolveFiles]
  dsimp only
  split <;> rfl

theorem keepsFile_of_not_mem (hcwd : t.HasCwd) (hout : config.outputDir = some out) (hfile : file.GoesDown)
    (hdown : ∀ other ∈ files, other.GoesDown) (hnotMem : file ∉ files) :
    Tree.KeepsFile t (resolveFiles config base t files).tree (out.normalize t.cwd ++ file.parts) := by
  intro content hget
  have hdiffers : Tree.DiffersBy (outputs config base t files) t (resolveFiles config base t files).tree :=
    differsBy_resolveFiles (hcwd.hasStart _)
  cases hdiffers.change (out.normalize t.cwd ++ file.parts) with
  | same hsame => rw [hsame, hget]
  | directory p count _ _ _ habsent _ => cases habsent.symm.trans hget
  | file p bytes hholds hreach _ _ =>
    obtain ⟨job, hdone, rfl, -⟩ := hholds
    obtain ⟨hmem, hdest⟩ := hdone.dest_eq hdown
    have hplace := Tree.normalize_of_reach hreach
    rw [hdest, hout, Option.getD_some, hdiffers.cwd, ← hfile.normalize_within] at hplace
    obtain rfl := (hdown _ hmem).eq_of_normalize_eq hfile hplace
    exact absurd hmem hnotMem

/-- A run that is done again, in the tree that it has left, resolves the same files to the same output and changes nothing that shows. -/
theorem resolveFiles_again (hcwd : t.HasCwd) (hout : config.outputDir = some out) (habove : t.HasAbove out)
    (hbase : t.isDir base = .ok true) (hnodup : files.Nodup)
    (hfiles : ∀ file ∈ files, StandsOutside (out.normalize t.cwd) t base file)
    (hlooks : NeverLooksInto (out.normalize t.cwd) config base t files)
    (hw : Tree.SameView (resolveFiles config base t files).tree w) :
    (resolveFiles config base t files).Repeats w (resolveFiles config base w files) := by
  -- The induction is on the files; what the later ones put out leaves the output of the first one and all sources alone.
  induction files generalizing t w with
  | nil => exact ⟨.refl w, rfl, rfl⟩
  | cons file rest ih =>
    have hhead := hfiles file List.mem_cons_self
    obtain ⟨content, hget⟩ := hhead.there
    have hwritten := (writtenInto_of_resolveFiles hcwd hout habove hbase hfiles).trans (hw.writtenInto _)
    have hentry : w.entry (base.within file) = t.entry (base.within file) :=
      Tree.entry_within_of_writtenInto hwritten hbase hhead.goesDown hget hhead.outside
    have hresolve := resolveFile_of_probed hwritten.outside hentry (hlooks t file comesTo_head)
    have hfirst : Tree.WrittenInto (out.normalize t.cwd) t (runFile config base t file).tree := by
      rw [← tree_resolveFiles_singleton]
      exact writtenInto_of_resolveFiles hcwd hout habove hbase fun other hother => by
        rw [List.mem_singleton.1 hother]
        exact hhead
    have hagain := runFile_again (w := w) hcwd hwritten.keepsDirs.cwd hout habove hhead.goesDown hentry hresolve
    cases houtcome : (runFile config base t file).outcome with
    | error failure =>
      rw [resolveFiles_cons_of_error houtcome] at hw ⊢
      have hrepeats := hagain hw.keepsDirs (fun content hget => by rw [hw.get?, hget]) fun _ _ => hw
      rw [resolveFiles_cons_of_error (hrepeats.outcome.trans houtcome)]
      exact ⟨hrepeats.view, hrepeats.log, rfl⟩
    | ok result =>
      rw [resolveFiles_cons_of_ok houtcome] at hw ⊢
      have hcwd' := hfirst.keepsDirs.hasCwd hcwd
      have hsame : (runFile config base t file).tree.cwd = t.cwd := hfirst.keepsDirs.cwd
      have hrest : ∀ other ∈ rest, StandsOutside (out.normalize t.cwd) (runFile config base t file).tree base other :=
        fun other hother => (hfiles other (List.mem_cons_of_mem _ hother)).writtenInto hfirst
      obtain ⟨hnotMem, hnodup⟩ := List.nodup_cons.1 hnodup
      have hkept : Tree.KeepsFile _ (resolveFiles config base _ rest).tree _ :=
        keepsFile_of_not_mem hcwd' hout hhead.goesDown (fun other hother => (hrest other hother).goesDown) hnotMem
      rw [hsame] at hkept
      have hrepeats := hagain ((keepsDirs_of_resolveFiles rest hcwd').trans hw.keepsDirs)
        (fun content hget => by rw [hw.get?]; exact hkept content hget) fun failure hfailure => by
          cases houtcome.symm.trans hfailure
      have hrests := ih (w := (runFile config base w file).tree) hcwd' (habove.writtenInto hfirst)
        (Tree.isDir_of_keepsDirs hfirst.keepsDirs hbase) hnodup
        (by rw [hsame]; exact hrest)
        (by rw [hsame]; exact fun u other hcomes => hlooks u other (hcomes.tail houtcome)) (hw.trans hrepeats.view)
      rw [resolveFiles_cons_of_ok (hrepeats.outcome.trans houtcome)]
      exact ⟨hrepeats.view.trans hrests.view, by rw [hrepeats.log, hrests.log], by rw [hrests.outcome]⟩

end Quotation
