import Quotation.Proofs.Batch.Destination

/-!
# Runs that write in place

Without an output directory a run writes each file over its source, and the files after it quote what has been written. So the tree that a run leaves depends on the order of its files, where one of them quotes another one that is rewritten (`exists_order_dependent_in_place`). Where none does, each file is resolved as if it were the only one, and the files in any order leave the same tree (`sameView_of_perm`).
-/

namespace Quotation

open Outcome

variable {t u : Tree} {config : Config} {base file other : Path} {earlier later files order : List Path}

/-! ### Where files stand -/

/-- A path in its shortest form, which goes down from the directory it is read in. -/
def Path.GoesDown (p : Path) : Prop := p.anchor = .here ∧ up ∉ p.parts ∧ stay ∉ p.parts

namespace Path

instance (p : Path) : Decidable p.GoesDown := inferInstanceAs (Decidable (_ ∧ _))

theorem GoesDown.normalize_within {p : Path} (h : p.GoesDown) (cwd : Place) (base : Path) :
    (base.within p).normalize cwd = base.normalize cwd ++ p.parts := by
  obtain ⟨anchor, parts⟩ := p
  obtain ⟨rfl, hup, hstay⟩ := h
  exact normalize_of_descent? (descent?_eq_some hup hstay) cwd base

theorem GoesDown.eq_of_normalize_eq {p q : Path} (hp : p.GoesDown) (hq : q.GoesDown) {cwd : Place}
    (h : (base.within p).normalize cwd = (base.within q).normalize cwd) : p = q := by
  rw [hp.normalize_within, hq.normalize_within] at h
  have hparts := List.append_cancel_left h
  obtain ⟨anchor, parts⟩ := p
  obtain ⟨anchor', parts'⟩ := q
  obtain ⟨rfl, -⟩ := hp
  obtain ⟨rfl, -⟩ := hq
  exact congrArg _ hparts

end Path

theorem destination_of_goesDown (h : file.GoesDown) (out : Path) : destination base (base.within file) out = out.within file := by
  obtain ⟨anchor, parts⟩ := file
  obtain ⟨rfl, -⟩ := h
  exact destination_within base out parts

theorem Job.Done.dest_eq {job : Job} (h : job.Done config base t files) (hdown : ∀ p ∈ files, p.GoesDown) :
    job.file ∈ files ∧ job.dest config base = (config.outputDir.getD base).within job.file := by
  refine ⟨h.1.mem, ?_⟩
  rw [Job.dest, source_of_resolveFile h.2, destination_of_goesDown (hdown _ h.1.mem)]

/-! ### One file -/

def Rewrites (t : Tree) (config : Config) (base file : Path) : Prop :=
  ∃ resolved, (resolveFile t config base file).outcome = .ok resolved ∧ resolved.changed = true

def Quotes (t : Tree) (config : Config) (base file target : Path) : Prop :=
  ∃ ctx body c, MeetsIn t config base (base.within file) ctx body ∧ Reading.ofBody t ctx body = .ok (.found c target)

theorem IsOutput.unique {resolved : Resolved} {a b : Bytes} (ha : IsOutput config resolved a) (hb : IsOutput config resolved b) :
    a = b := by
  obtain ⟨charset, hcharset, ha⟩ := ha
  obtain ⟨charset', hcharset', hb⟩ := hb
  obtain rfl := hcharset.unique hcharset'
  exact Except.ok.inj (ha.symm.trans hb)

theorem entry_of_rewrites (h : Rewrites t config base file) :
    ∃ content, t.get? ((base.within file).normalize t.cwd) = some (.file content) ∧
      t.entry (base.within file) = .ok (.file content) := by
  obtain ⟨resolved, hresolve, -⟩ := h
  obtain ⟨content, hread⟩ := read_source_of_resolveFile hresolve
  rw [source_of_resolveFile hresolve] at hread
  obtain ⟨place, hreach, hget⟩ := Tree.readAt_eq_ok_iff.1 hread
  refine ⟨content, ?_, Tree.read_eq_ok_iff.1 hread⟩
  rwa [Tree.normalize_of_reach hreach]

theorem tree_place_of_unchanged {resolved : Resolved} (h : resolved.changed = false) :
    (place t config resolved.source resolved).tree = t := by
  rw [place, if_neg (by simp [h])]
  split
  · next target source htarget hsource =>
    rw [if_pos (Except.ok.inj (htarget.symm.trans hsource))]
  · rfl
  · rfl

/-- A file that is resolved in place is left alone or written over. -/
theorem tree_of_runFile_in_place {result : FileResult} (hout : config.outputDir = none) (hfile : file.GoesDown)
    (h : (runFile config base t file).outcome = .ok result) :
    (¬ Rewrites t config base file ∧ (runFile config base t file).tree = t) ∨
      ∃ resolved content, (resolveFile t config base file).outcome = .ok resolved ∧ resolved.changed = true ∧
        IsOutput config resolved content ∧ (runFile config base t file).tree.cwd = t.cwd ∧
        ∀ place, (runFile config base t file).tree.get? place =
          if place = (base.within file).normalize t.cwd then some (.file content) else t.get? place := by
  cases result with
  | failed source complaint =>
    obtain ⟨hresolve, htree, -⟩ := exists_of_failed h
    refine .inl ⟨?_, htree⟩
    intro hrewrites
    obtain ⟨resolved, hok, -⟩ := hrewrites
    cases hresolve.symm.trans hok
  | placed placed =>
    obtain ⟨hresolve, hdest, hplace, htree⟩ := exists_of_placed h
    have hsource := source_of_resolveFile hresolve
    rw [hout, Option.getD_none, hsource, destination_of_goesDown hfile base] at hdest
    obtain ⟨content, hread⟩ := read_source_of_resolveFile hresolve
    rw [hsource] at hread
    rw [htree, hdest]
    rw [hdest] at hplace
    cases hchanged : placed.resolved.changed with
    | false =>
      refine .inl ⟨?_, by rw [← hsource, tree_place_of_unchanged hchanged]⟩
      intro hrewrites
      obtain ⟨resolved, hok, hrewritten⟩ := hrewrites
      obtain rfl := Except.ok.inj (hresolve.symm.trans hok)
      simp [hchanged] at hrewritten
    | true =>
      rw [place, if_pos hchanged] at hplace ⊢
      dsimp only at hplace ⊢
      have hwrite : t.writeLines (base.within file) placed.resolved.lines config.encoding =
          ((t.writeLines (base.within file) placed.resolved.lines config.encoding).1, .ok ()) :=
        Prod.ext rfl (mapError_eq_ok_iff.1 hplace)
      obtain ⟨bytes, hbytes, hcwd, hget⟩ := Tree.get?_of_writeLines (Tree.read_eq_ok_iff.1 hread) hwrite
      exact .inr ⟨placed.resolved, bytes, hresolve, hchanged, hbytes, hcwd, hget⟩

/-! ### Whole runs -/

/-- The tree has the output of some files where these stand, and is else as it was. -/
structure Rewritten (t : Tree) (config : Config) (base : Path) (files : List Path) (u : Tree) : Prop where
  cwd : u.cwd = t.cwd
  output : ∀ file ∈ files, ∀ resolved, (resolveFile t config base file).outcome = .ok resolved → resolved.changed = true →
    ∃ content, IsOutput config resolved content ∧ u.get? ((base.within file).normalize t.cwd) = some (.file content)
  kept : ∀ place, (∀ file ∈ files, Rewrites t config base file → (base.within file).normalize t.cwd ≠ place) →
    u.get? place = t.get? place

theorem Rewritten.sameKinds (h : Rewritten t config base files u) : Tree.SameKinds t u := by
  refine ⟨h.cwd, fun place => ?_⟩
  by_cases hplace : ∀ file ∈ files, Rewrites t config base file → (base.within file).normalize t.cwd ≠ place
  · exact .inl (h.kept place hplace)
  · push Not at hplace
    obtain ⟨file, hfile, hrewrites, rfl⟩ := hplace
    obtain ⟨content, hget, -⟩ := entry_of_rewrites hrewrites
    obtain ⟨resolved, hresolve, hchanged⟩ := hrewrites
    obtain ⟨output, -, hout⟩ := h.output file hfile resolved hresolve hchanged
    exact .inr ⟨content, output, hget, hout⟩

/-- A file comes out as it would alone if neither it nor what it quotes has been rewritten. -/
theorem Rewritten.resolveFile_eq (h : Rewritten t config base files u)
    (hapart : ∀ other ∈ files, Rewrites t config base other →
      (base.within other).normalize t.cwd ≠ (base.within file).normalize t.cwd)
    (hquotes : ∀ other ∈ files, Rewrites t config base other → ∀ target, Quotes t config base file target →
      (base.within other).normalize t.cwd ≠ target.normalize t.cwd) :
    resolveFile u config base file = resolveFile t config base file := by
  have hentry : ∀ p : Path, (∀ other ∈ files, Rewrites t config base other →
      (base.within other).normalize t.cwd ≠ p.normalize t.cwd) → u.entry p = t.entry p := by
    intro p hp
    refine Tree.entry_of_sameKinds h.sameKinds fun place hreach => h.kept place ?_
    rw [← Tree.normalize_of_reach hreach]
    exact hp
  refine resolveFile_congr (Tree.citedLines_of_entry_eq (hentry _ hapart)) fun ctx body hmeets => ?_
  refine ⟨Reading.ofBody_of_sameKinds h.sameKinds ctx body, fun c target hfound => ?_⟩
  apply Tree.excerpt_of_entry_eq
  apply hentry
  intro other hother hrewrites
  exact hquotes other hother hrewrites target ⟨ctx, body, c, hmeets, hfound⟩

theorem Rewritten.concat {result : FileResult} (h : Rewritten t config base files u) (hout : config.outputDir = none)
    (hfile : file.GoesDown) (hsame : resolveFile u config base file = resolveFile t config base file)
    (hapart : ∀ other ∈ files, Rewrites t config base other →
      (base.within other).normalize t.cwd ≠ (base.within file).normalize t.cwd)
    (hrun : (runFile config base u file).outcome = .ok result) :
    Rewritten t config base (files ++ [file]) (runFile config base u file).tree := by
  obtain ⟨hleft, htree⟩ | ⟨resolved, content, hresolve, hchanged, houtput, hcwd, hget⟩ := tree_of_runFile_in_place hout hfile hrun
  · have hleft' : ¬ Rewrites t config base file := by rwa [Rewrites, hsame] at hleft
    rw [htree]
    refine ⟨h.cwd, fun other hother resolved hresolve hchanged => ?_, fun place hplace => ?_⟩
    · obtain hother | hother := List.mem_append.1 hother
      · exact h.output other hother resolved hresolve hchanged
      · obtain rfl := List.mem_singleton.1 hother
        exact absurd ⟨resolved, hresolve, hchanged⟩ hleft'
    · exact h.kept place fun other hother => hplace other (List.mem_append_left _ hother)
  · rw [hsame] at hresolve
    rw [h.cwd] at hget
    refine ⟨hcwd.trans h.cwd, fun other hother resolved' hresolve' hchanged' => ?_, fun place hplace => ?_⟩
    · obtain hother | hother := List.mem_append.1 hother
      · obtain ⟨content', houtput', hget'⟩ := h.output other hother resolved' hresolve' hchanged'
        refine ⟨content', houtput', ?_⟩
        rw [hget, if_neg (hapart other hother ⟨resolved', hresolve', hchanged'⟩), hget']
      · obtain rfl := List.mem_singleton.1 hother
        obtain rfl := Except.ok.inj (hresolve.symm.trans hresolve')
        exact ⟨content, houtput, by rw [hget, if_pos rfl]⟩
    · have hne : place ≠ (base.within file).normalize t.cwd :=
        (hplace file (by simp) ⟨resolved, hresolve, hchanged⟩).symm
      rw [hget, if_neg hne]
      exact h.kept place fun other hother => hplace other (List.mem_append_left _ hother)

def QuotesNoRewritten (t : Tree) (config : Config) (base : Path) (files : List Path) : Prop :=
  ∀ file ∈ files, ∀ other ∈ files, other ≠ file → Rewrites t config base other →
    ∀ target, Quotes t config base file target → (base.within other).normalize t.cwd ≠ target.normalize t.cwd

theorem rewritten_of_resolveFiles {run : Run} (hout : config.outputDir = none) (h : Rewritten t config base earlier u)
    (hdistinct : (earlier ++ later).Nodup) (hdown : ∀ file ∈ earlier ++ later, file.GoesDown)
    (hquotes : QuotesNoRewritten t config base (earlier ++ later)) (hrun : (resolveFiles config base u later).outcome = .ok run) :
    Rewritten t config base (earlier ++ later) (resolveFiles config base u later).tree := by
  induction later generalizing u earlier run with
  | nil =>
    rw [List.append_nil]
    exact h
  | cons file rest ih =>
    obtain ⟨result, others, hfirst, hothers, rfl⟩ := resolveFiles_cons_eq_ok_iff.1 hrun
    have hmem : file ∈ earlier ++ file :: rest := by simp
    have hne : ∀ other ∈ earlier, other ≠ file := by
      intro other hother
      exact (List.nodup_append.1 hdistinct).2.2 other hother file (by simp)
    have hapart : ∀ other ∈ earlier, Rewrites t config base other →
        (base.within other).normalize t.cwd ≠ (base.within file).normalize t.cwd := by
      intro other hother _ heq
      exact hne other hother ((hdown other (List.mem_append_left _ hother)).eq_of_normalize_eq (hdown file hmem) heq)
    have hsame : resolveFile u config base file = resolveFile t config base file := by
      apply h.resolveFile_eq hapart
      intro other hother
      exact hquotes file hmem other (List.mem_append_left _ hother) (hne other hother)
    have hstep := h.concat hout (hdown file hmem) hsame hapart hfirst
    have hlist : earlier ++ file :: rest = earlier ++ [file] ++ rest := by simp
    rw [hlist] at hdistinct hdown hquotes ⊢
    rw [resolveFiles_cons_of_ok hfirst]
    exact ih hstep hdistinct hdown hquotes hothers

theorem sameView_of_rewritten {v : Tree} (h : Rewritten t config base files u) (h' : Rewritten t config base order v)
    (hperm : order.Perm files) : Tree.SameView u v := by
  refine ⟨h'.cwd.trans h.cwd.symm, fun place => ?_⟩
  by_cases hplace : ∀ file ∈ files, Rewrites t config base file → (base.within file).normalize t.cwd ≠ place
  · rw [h.kept place hplace, h'.kept place fun file hfile => hplace file (hperm.mem_iff.1 hfile)]
  · push Not at hplace
    obtain ⟨file, hfile, ⟨resolved, hresolve, hchanged⟩, rfl⟩ := hplace
    obtain ⟨content, houtput, hget⟩ := h.output file hfile resolved hresolve hchanged
    obtain ⟨content', houtput', hget'⟩ := h'.output file (hperm.mem_iff.2 hfile) resolved hresolve hchanged
    rw [hget, hget', houtput.unique houtput']

/-- Different files below a directory of which none quotes from another one that is rewritten leave the same tree in any order. -/
theorem sameView_of_perm {run run' : Run} (hout : config.outputDir = none) (hdistinct : files.Nodup)
    (hdown : ∀ file ∈ files, file.GoesDown) (hquotes : QuotesNoRewritten t config base files) (hperm : order.Perm files)
    (hrun : (resolveFiles config base t files).outcome = .ok run)
    (hrun' : (resolveFiles config base t order).outcome = .ok run') :
    Tree.SameView (resolveFiles config base t files).tree (resolveFiles config base t order).tree := by
  have hnone : Rewritten t config base [] t := ⟨rfl, fun _ hfile => absurd hfile List.not_mem_nil, fun _ _ => rfl⟩
  have hfiles := rewritten_of_resolveFiles hout hnone hdistinct hdown hquotes hrun
  have horder := rewritten_of_resolveFiles hout hnone (hperm.nodup_iff.2 hdistinct)
    (fun file hfile => hdown file (hperm.mem_iff.1 hfile))
    (fun file hfile other hother => hquotes file (hperm.mem_iff.1 hfile) other (hperm.mem_iff.1 hother)) hrun'
  exact sameView_of_rewritten hfiles horder hperm

theorem sameView_of_quoted_unchanged :
    Tree.SameView
      (resolveFiles {} Path.here chainTree (["b", "c"].map fun file => Path.ofText file.toList)).tree
      (resolveFiles {} Path.here chainTree (["c", "b"].map fun file => Path.ofText file.toList)).tree := by
  let rewritten : FileResult := .placed ⟨⟨Path.ofText "b".toList, ["x".toList], true, 1, []⟩, Path.ofText "b".toList⟩
  let unchanged : FileResult := .placed ⟨⟨Path.ofText "c".toList, ["x".toList], false, 0, []⟩, Path.ofText "c".toList⟩
  have hrun : (resolveFiles {} Path.here chainTree (["b", "c"].map fun file => Path.ofText file.toList)).outcome =
      .ok ⟨[rewritten, unchanged]⟩ := by decide +kernel
  have hrun' : (resolveFiles {} Path.here chainTree (["c", "b"].map fun file => Path.ofText file.toList)).outcome =
      .ok ⟨[unchanged, rewritten]⟩ := by decide +kernel
  have hperm : (["c", "b"].map fun file => Path.ofText file.toList).Perm (["b", "c"].map fun file => Path.ofText file.toList) :=
    (List.Perm.swap "b" "c" []).map _
  refine sameView_of_perm rfl (by decide +kernel) (by decide +kernel) ?_ hperm hrun hrun'
  intro file hfile other hother hne hrewrites target hquotes
  obtain rfl | rfl : file = Path.ofText "b".toList ∨ file = Path.ofText "c".toList := by simpa using hfile
  · have hothers : other = Path.ofText "b".toList ∨ other = Path.ofText "c".toList := by simpa using hother
    obtain rfl := hothers.resolve_left hne
    obtain ⟨resolved, hresolve, hchanged⟩ := hrewrites
    have hsame : (resolveFile chainTree {} Path.here (Path.ofText "c".toList)).outcome =
        .ok ⟨Path.ofText "c".toList, ["x".toList], false, 0, []⟩ := by decide +kernel
    obtain rfl := Except.ok.inj (hsame.symm.trans hresolve)
    cases hchanged
  · obtain ⟨ctx, body, c, ⟨lines, hlines, hmet⟩, -⟩ := hquotes
    have hread : chainTree.citedLines (some "utf-8".toList) (Path.ofText "c".toList) = .ok ["x".toList] := by decide +kernel
    obtain rfl := Except.ok.inj (hread.symm.trans hlines)
    have hnone : ["x".toList].flatMap Segment.markers = [] := by decide +kernel
    have hbody := (hmet.of_not_recursive rfl).2
    rw [hnone] at hbody
    cases hbody

/-- The first file quotes the second, which quotes a third; what the first one gets depends on which of the two comes first. -/
theorem exists_order_dependent_in_place :
    ∃ run run', (resolveFiles {} Path.here chainTree chainFiles).outcome = .ok run ∧ run.failures = [] ∧
      (resolveFiles {} Path.here chainTree chainFiles.reverse).outcome = .ok run' ∧ run'.failures = [] ∧
      (resolveFiles {} Path.here chainTree chainFiles).tree.get? ["a".toList] =
        some (.file (Charset.Utf8.encode "[c]\n".toList)) ∧
      (resolveFiles {} Path.here chainTree chainFiles.reverse).tree.get? ["a".toList] =
        some (.file (Charset.Utf8.encode "x\n".toList)) := by
  refine ⟨⟨[.placed ⟨⟨Path.ofText "a".toList, ["[c]".toList], true, 1, []⟩, Path.ofText "a".toList⟩,
      .placed ⟨⟨Path.ofText "b".toList, ["x".toList], true, 1, []⟩, Path.ofText "b".toList⟩]⟩,
    ⟨[.placed ⟨⟨Path.ofText "b".toList, ["x".toList], true, 1, []⟩, Path.ofText "b".toList⟩,
      .placed ⟨⟨Path.ofText "a".toList, ["x".toList], true, 1, []⟩, Path.ofText "a".toList⟩]⟩, ?_⟩
  decide +kernel

end Quotation
