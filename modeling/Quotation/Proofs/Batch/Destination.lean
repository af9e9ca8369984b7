import Quotation.Proofs.Batch.Independence
import Quotation.Proofs.Tree.SameFile

/-!
# Where output goes

Whether a source is below the base directory is told by the names as they are written. The output of one that starts with the base directory goes on by the same names from the output directory (`destination_within`), and any other keeps its last name only (`destination_of_not_startsWith`). So without an output directory a file is written over itself if its path starts with the base directory or if it stands right in it, and beside it otherwise (`resolveFiles_in_place`).
-/

namespace Quotation

open Outcome

variable {t : Tree} {config : Config} {base source out file : Path} {names inner rel : List Text} {resolved : Resolved} {content : Bytes}

namespace Path

/-! ### Names below a directory -/

/-- As it is written, the path is the one of a directory with more names after it. -/
def StartsWith (p base : Path) : Prop := ∃ names, p = base.within ⟨.here, names⟩

theorem relativeTo?_eq_none (h : ¬ source.StartsWith base) : source.relativeTo? base = none := by
  rw [relativeTo?, if_neg]
  rintro ⟨hanchor, rest, hparts⟩
  refine h ⟨rest, ?_⟩
  rw [within_of_here, ← hanchor, hparts]

theorem startsWith_of_here (base : Path) (h : file.anchor = .here) : (base.within file).StartsWith base := by
  obtain ⟨anchor, parts⟩ := file
  obtain rfl : anchor = .here := h
  exact ⟨parts, rfl⟩

theorem within_of_not_startsWith (h : ¬ (base.within file).StartsWith base) : base.within file = file := by
  by_cases habsolute : file.isAbsolute = true
  · exact within_of_isAbsolute habsolute
  · exact absurd (startsWith_of_here base (by simpa [isAbsolute] using habsolute)) h

def stepInside (inner : List Text) (name : Text) : Option (List Text) :=
  if name = up ∧ inner = [] then none else some (step inner name)

/-- Where names lead below the directory they are read in, unless they lead above it on the way. -/
def descent? (names : List Text) : Option (List Text) := names.foldlM stepInside []

theorem step_append {name : Text} (h : stepInside inner name = some rel) (dir : Place) :
    step (dir ++ inner) name = dir ++ rel := by
  rw [stepInside] at h
  split at h
  · cases h
  · next hinside =>
    obtain rfl := Option.some.inj h
    rw [step, step]
    split
    · next hup => exact List.dropLast_append_of_ne_nil fun hnil => hinside ⟨hup, hnil⟩
    · split
      · rfl
      · exact List.append_assoc dir inner [name]

theorem foldl_step_append (h : names.foldlM stepInside inner = some rel) (dir : Place) :
    names.foldl step (dir ++ inner) = dir ++ rel := by
  induction names generalizing inner with
  | nil => rw [List.foldl_nil, Option.some.inj h]
  | cons name rest ih =>
    rw [List.foldlM_cons] at h
    obtain ⟨next, hnext, hrest⟩ := Option.bind_eq_some_iff.1 h
    rw [List.foldl_cons, step_append hnext, ih hrest]

/-- Names that never lead above their directory lead to the same place below any directory. -/
theorem normalize_of_descent? (h : descent? names = some rel) (cwd : Place) (dir : Path) :
    (dir.within ⟨.here, names⟩).normalize cwd = dir.normalize cwd ++ rel := by
  rw [normalize_within]
  simpa using foldl_step_append h (dir.normalize cwd)

theorem foldlM_stepInside (hup : up ∉ names) (hstay : stay ∉ names) (inner : List Text) :
    names.foldlM stepInside inner = some (inner ++ names) := by
  induction names generalizing inner with
  | nil => rw [List.foldlM_nil, List.append_nil]; rfl
  | cons name rest ih =>
    obtain ⟨hname, hrest⟩ : up ≠ name ∧ up ∉ rest := by simpa using hup
    obtain ⟨hname', hrest'⟩ : stay ≠ name ∧ stay ∉ rest := by simpa using hstay
    have hstep : stepInside inner name = some (inner ++ [name]) := by
      rw [stepInside, if_neg fun h => hname h.1.symm, step, if_neg hname.symm, if_neg hname'.symm]
    rw [List.foldlM_cons, hstep]
    exact (ih hrest hrest' _).trans (by rw [List.append_assoc]; rfl)

theorem descent?_eq_some (hup : up ∉ names) (hstay : stay ∉ names) : descent? names = some names :=
  foldlM_stepInside hup hstay []

theorem nil_not_mem_ofText (written : Text) : [] ∉ (ofText written).parts := by
  intro hmem
  have hne := (List.mem_filter.1 hmem).2
  simp at hne

theorem name_ne_nil (hnames : [] ∉ source.parts) (hparts : source.parts ≠ []) : source.name ≠ [] := by
  rw [name, List.getLast?_eq_some_getLast hparts, Option.getD_some]
  intro hnil
  exact hnames (hnil ▸ List.getLast_mem hparts)

end Path

/-! ### Destinations -/

theorem destination_within (base out : Path) (names : List Text) :
    destination base (base.within ⟨.here, names⟩) out = out.within ⟨.here, names⟩ := by
  rw [destination, Path.relativeTo?_within, Option.getD_some]

theorem destination_of_not_startsWith (h : ¬ source.StartsWith base) (out : Path) :
    destination base source out = out.within ⟨.here, if source.name = [] then [] else [source.name]⟩ := by
  rw [destination, Path.relativeTo?_eq_none h, Option.getD_none]

theorem destination_self (h : source.StartsWith base) : destination base source base = source := by
  obtain ⟨names, rfl⟩ := h
  exact destination_within base base names

theorem descent?_name (hread : t.read source = .ok content) :
    Path.descent? (if source.name = [] then [] else [source.name]) = some (if source.name = [] then [] else [source.name]) := by
  split
  · rfl
  · next hname =>
    have hparts : source.parts ≠ [] := by
      intro hnil
      exact hname (by rw [Path.name, hnil]; rfl)
    obtain ⟨place, hreach, hget⟩ := Tree.readAt_eq_ok_iff.1 hread
    obtain ⟨-, -, hup, hstay⟩ := Tree.walk_dropLast_of_file hreach hget hparts
    exact Path.descent?_eq_some (by simpa using hup.symm) (by simpa using hstay.symm)

theorem normalize_destination_of_not_startsWith (hread : t.read source = .ok content) (h : ¬ source.StartsWith base) (cwd : Place)
    (out : Path) :
    (destination base source out).normalize cwd = out.normalize cwd ++ if source.name = [] then [] else [source.name] := by
  rw [destination_of_not_startsWith h, Path.normalize_of_descent? (descent?_name hread)]

/-! ### In place -/

theorem Tree.HasCwd.isFile_here (h : t.HasCwd) : t.isFile Path.here = false := by
  have hentry : t.entry Path.here = .ok .directory := entryAt_eq_ok_iff.2 ⟨t.cwd, rfl, h⟩
  rw [isFile, hentry]

theorem normalize_destination_eq_iff (hcwd : t.HasCwd) (hnames : [] ∉ source.parts) (hread : t.read source = .ok content)
    (h : ¬ source.StartsWith base) :
    (destination base source base).normalize t.cwd = source.normalize t.cwd ↔
      source.parent.normalize t.cwd = base.normalize t.cwd := by
  have hparts := Tree.parts_ne_nil_of_isFile hcwd.isFile_here (Tree.isFile_of_read hread)
  obtain ⟨place, hreach, hget⟩ := Tree.readAt_eq_ok_iff.1 hread
  obtain ⟨hwalk, hplace, -, -⟩ := Tree.walk_dropLast_of_file hreach hget hparts
  have hparent : source.parent.normalize t.cwd = place.dropLast := (t.walk_eq_foldl _ _ _ hwalk).symm
  rw [normalize_destination_of_not_startsWith hread h, if_neg (Path.name_ne_nil hnames hparts),
    Tree.normalize_of_reach hreach, hparent]
  conv_lhs => rw [hplace]
  rw [List.append_cancel_right_eq, eq_comm]

/-- In place a file is written over itself if its path starts with the base directory or if it stands right there. -/
theorem normalize_destination_in_place_iff (hcwd : t.HasCwd) (hnames : [] ∉ file.parts)
    (hread : t.read (base.within file) = .ok content) :
    (destination base (base.within file) base).normalize t.cwd = (base.within file).normalize t.cwd ↔
      (base.within file).StartsWith base ∨ (base.within file).parent.normalize t.cwd = base.normalize t.cwd := by
  by_cases hstarts : (base.within file).StartsWith base
  · rw [destination_self hstarts]
    exact iff_of_true rfl (.inl hstarts)
  · have hself := Path.within_of_not_startsWith hstarts
    rw [or_iff_right hstarts]
    rw [hself] at hread hstarts ⊢
    exact normalize_destination_eq_iff hcwd hnames hread hstarts

theorem eq_of_resolveFiles_singleton {run : Run} (hresolve : (resolveFile t config base file).outcome = .ok resolved)
    (hrun : (resolveFiles config base t [file]).outcome = .ok run) :
    run = ⟨[.placed ⟨resolved, destination base resolved.source (config.outputDir.getD base)⟩]⟩ := by
  obtain ⟨result, others, hfirst, hothers, rfl⟩ := resolveFiles_cons_eq_ok_iff.1 hrun
  obtain rfl := Except.ok.inj hothers
  have hresult := resultIn_of_runFile hfirst
  rw [resultIn, hresolve] at hresult
  rw [← Option.some.inj hresult]

theorem file_iff_of_resolveFiles_singleton {place : Place} (hcwd : t.HasCwd)
    (helsewhere : place ≠ (destination base (base.within file) (config.outputDir.getD base)).normalize t.cwd)
    (content : Bytes) :
    (resolveFiles config base t [file]).tree.get? place = some (.file content) ↔ t.get? place = some (.file content) := by
  have hdiffers : Tree.DiffersBy (outputs config base t [file]) t (resolveFiles config base t [file]).tree :=
    differsBy_resolveFiles (hcwd.hasStart _)
  refine hdiffers.file_iff (fun p bytes hholds hreach => helsewhere ?_) content
  obtain ⟨job, ⟨hcomes, hdone⟩, rfl, -⟩ := hholds
  rw [Job.dest, source_of_resolveFile hdone, (comesTo_singleton hcomes).2] at hreach
  rw [← Tree.normalize_of_reach hreach, hdiffers.cwd]

/-- Without an output directory a run of one file changes no file but its destination, which is the file itself exactly if its path starts with the base directory or it stands right in it. -/
theorem resolveFiles_in_place (hcwd : t.HasCwd) (hnames : [] ∉ file.parts) (hout : config.outputDir = none)
    (hresolve : (resolveFile t config base file).outcome = .ok resolved) :
    let source := base.within file
    let dest := destination base source base
    (∀ run, (resolveFiles config base t [file]).outcome = .ok run → run = ⟨[.placed ⟨resolved, dest⟩]⟩) ∧
      (dest.normalize t.cwd = source.normalize t.cwd ↔
        source.StartsWith base ∨ source.parent.normalize t.cwd = base.normalize t.cwd) ∧
      (source.StartsWith base → dest = source) ∧
      ∀ place content, place ≠ dest.normalize t.cwd →
        ((resolveFiles config base t [file]).tree.get? place = some (.file content) ↔ t.get? place = some (.file content)) := by
  intro source dest
  have hsource : resolved.source = source := source_of_resolveFile hresolve
  have hbase : config.outputDir.getD base = base := by rw [hout, Option.getD_none]
  refine ⟨fun run hrun => ?_, ?_, destination_self, fun place content hplace => ?_⟩
  · rw [eq_of_resolveFiles_singleton hresolve hrun, hsource, hbase]
  · obtain ⟨content, hread⟩ := read_source_of_resolveFile hresolve
    rw [hsource] at hread
    exact normalize_destination_in_place_iff hcwd hnames hread
  · apply file_iff_of_resolveFiles_singleton hcwd
    rwa [hbase]

def aboveTree : Tree :=
  ⟨[], .folder "b".toList .empty (.file "d".toList (Charset.Utf8.encode "[e]\n".toList)
    (.file "e".toList (Charset.Utf8.encode "y\n".toList) .empty))⟩

theorem resolveFiles_in_place_in_aboveTree :
    ∃ resolved, (resolveFile aboveTree {} (Path.ofText "b".toList) (Path.ofText "../d".toList)).outcome = .ok resolved ∧
      (∀ run, (resolveFiles {} (Path.ofText "b".toList) aboveTree [Path.ofText "../d".toList]).outcome = .ok run →
        run = ⟨[.placed ⟨resolved, Path.ofText "b/../d".toList⟩]⟩) ∧
      ∀ place content, place ≠ ["d".toList] →
        ((resolveFiles {} (Path.ofText "b".toList) aboveTree [Path.ofText "../d".toList]).tree.get? place = some (.file content) ↔
          aboveTree.get? place = some (.file content)) := by
  have hresolve : (resolveFile aboveTree {} (Path.ofText "b".toList) (Path.ofText "../d".toList)).outcome =
      .ok ⟨Path.ofText "b/../d".toList, ["y".toList], true, 1, []⟩ := by decide +kernel
  obtain ⟨hrun, -, -, hkept⟩ := resolveFiles_in_place (by rfl) (Path.nil_not_mem_ofText _) rfl hresolve
  exact ⟨_, hresolve, hrun, hkept⟩

def namesakeTree : Tree :=
  ⟨[], .folder "x".toList (.file "d".toList (Charset.Utf8.encode "[e]\n".toList) .empty)
    (.file "d".toList (Charset.Utf8.encode "w\n".toList) (.file "e".toList (Charset.Utf8.encode "y\n".toList) .empty))⟩

/-- By its absolute path the file does not start with the working directory as that is written, so it is written over the other one. -/
theorem exists_overwritten_in_place :
    ∃ resolved, (resolveFile namesakeTree {} Path.here (Path.ofText "/x/d".toList)).outcome = .ok resolved ∧
      (resolveFiles {} Path.here namesakeTree [Path.ofText "/x/d".toList]).outcome =
        .ok ⟨[.placed ⟨resolved, Path.ofText "d".toList⟩]⟩ ∧
      namesakeTree.get? ["d".toList] = some (.file (Charset.Utf8.encode "w\n".toList)) ∧
      (resolveFiles {} Path.here namesakeTree [Path.ofText "/x/d".toList]).tree.get? ["d".toList] =
        some (.file (Charset.Utf8.encode "y\n".toList)) ∧
      (resolveFiles {} Path.here namesakeTree [Path.ofText "/x/d".toList]).tree.get? ["x".toList, "d".toList] =
        some (.file (Charset.Utf8.encode "[e]\n".toList)) := by
  refine ⟨⟨Path.ofText "/x/d".toList, ["y".toList], true, 1, []⟩, ?_⟩
  decide +kernel

end Quotation
