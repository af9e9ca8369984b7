import Quotation.Proofs.Tree.Limits
import Quotation.Proofs.Tree.Staged

/-!
# Where a file can be put

A file can be put at a path if nothing is in its way (`Accepts`). Making the directories above the path then succeeds, since every step leaves a tree that accepts the file as well (`Accepts.of_differsBy`), and so does the copy of a file from elsewhere, after which both paths read the same (`Accepts.copyFile`).
-/

namespace Quotation.Tree

open Outcome

/-- A file can be put at a path: the path keeps within the limits of the system, no file stands where it asks for a directory, and no directory stands where it leads, neither one that is there already nor one that it passes through. -/
structure Accepts (t : Tree) (p : Path) : Prop where
  cwd : t.HasCwd
  limits : p.WithinLimits
  no_null : p.hasNull = false
  free : ∀ count < p.parts.length, t.get? ((p.upTo count).normalize t.cwd) ∈ [none, some .directory]
  no_directory : t.get? (p.normalize t.cwd) ≠ some .directory
  apart : ∀ count < p.parts.length, (p.upTo count).normalize t.cwd ≠ p.normalize t.cwd

variable {t u : Tree} {p dest source : Path} {place : Place} {content : Bytes} {count : Nat}

/-! ### Walking up to a file -/

theorem walk_ok_or_notFound {start : Place} {parts : List Text} (hnames : ∀ part ∈ parts, Charset.Utf8.size part ≤ nameLimit)
    (hfree : ∀ count < parts.length, t.get? ((parts.take count).foldl Path.step start) ∈ [none, some .directory]) :
    (∃ place, t.walk start parts = .ok place) ∨ t.walk start parts = .error .notFound := by
  induction parts generalizing start with
  | nil => exact .inl ⟨start, rfl⟩
  | cons part parts ih =>
    obtain ⟨hpart, hparts⟩ := List.forall_mem_cons.1 hnames
    have hrest : ∀ count < parts.length,
        t.get? ((parts.take count).foldl Path.step (Path.step start part)) ∈ [none, some .directory] :=
      fun count hcount => hfree (count + 1) (Nat.succ_lt_succ hcount)
    have hstart : t.get? start ∈ [none, some .directory] := hfree 0 (Nat.succ_pos _)
    have hnext := ih hparts hrest
    rw [Path.step] at hnext
    rw [walk]
    split
    · exact .inr rfl
    · next hfile => simp [hfile] at hstart
    · split
      · next hup => rwa [if_pos hup] at hnext
      · next hup =>
        rw [if_neg hup] at hnext
        split
        · next hstay => rwa [if_pos hstay] at hnext
        · next hstay =>
          rw [if_neg (Nat.not_lt.2 hpart)]
          rwa [if_neg hstay] at hnext

theorem walk_take_succ (hcount : count < p.parts.length) (hdir : t.entry (p.upTo count) = .ok .directory) :
    ∃ dir, t.get? dir = some .directory ∧ t.walk (t.startOf p) (p.parts.take count) = .ok dir ∧
      t.walk (t.startOf p) (p.parts.take (count + 1)) = t.walk dir [p.parts[count]] := by
  obtain ⟨dir, hreach, hget⟩ := entryAt_eq_ok_iff.1 hdir
  obtain ⟨-, -, hwalk⟩ := reach_eq_ok_iff.1 hreach
  have hfirst : t.walk (t.startOf p) (p.parts.take count) = .ok dir := hwalk
  refine ⟨dir, hget, hfirst, ?_⟩
  rw [List.take_succ_eq_append_getElem hcount, walk_append, hfirst]
  rfl

theorem makeDir_or_acceptDir (hreach : t.reach p = .ok place) (hfree : t.get? place ∈ [none, some .directory]) :
    (∃ made, t.makeDir p = .ok made) ∨
      t.makeDir p = .error (.os .exists) ∧ t.acceptDir p (.os .exists) = .ok () := by
  simp only [List.mem_cons, List.not_mem_nil, or_false] at hfree
  obtain hnone | hdir := hfree
  · exact .inl ⟨t.insert place .directory, by rw [makeDir, hreach]; simp [bind, Except.bind, hnone, pure, Except.pure]⟩
  · refine .inr ⟨by rw [makeDir, hreach]; simp [bind, Except.bind, hdir, throw, throwThe, MonadExceptOf.throw], ?_⟩
    have hentry : t.entry p = .ok .directory := entryAt_eq_ok_iff.2 ⟨place, hreach, hdir⟩
    have hisDir : t.isDir p = .ok true := by rw [isDir, hentry]
    simp only [acceptDir, hisDir]

theorem copyInto_eq_writeFile {origin : Place} (hsource : t.reach source = .ok origin) (hget : t.get? origin = some (.file content))
    (hdest : t.reach dest = .ok place) (hne : origin ≠ place) : t.copyInto (t.reach source) dest = t.writeFile dest content := by
  obtain ⟨hnull, -, -⟩ := reach_eq_ok_iff.1 hdest
  simp [copyInto, hsource, hdest, hnull, isSame, hne, readAt, entryAt, hget, bind, Except.bind, pure, Except.pure]

namespace Accepts

theorem hasNull_upTo (h : t.Accepts p) (count : Nat) : (p.upTo count).hasNull = false := by
  have hall := h.no_null
  rw [Path.hasNull, List.any_eq_false] at hall ⊢
  exact fun part hpart => hall part (List.mem_of_mem_take hpart)

theorem reach_upTo (h : t.Accepts p) (count : Nat) :
    t.reach (p.upTo count) = (t.walk (t.startOf p) (p.parts.take count)).mapError .os := by
  have hshort := h.limits.1.upTo count
  rw [reach_eq, h.hasNull_upTo, if_neg (by simp), if_neg (Nat.not_lt.2 hshort)]
  rfl

theorem exists_reach_or (h : t.Accepts p) (count : Nat) :
    (∃ place, t.reach (p.upTo count) = .ok place) ∨ t.reach (p.upTo count) = .error (.os .notFound) := by
  have hwalk : (∃ place, t.walk (t.startOf p) (p.parts.take count) = .ok place) ∨
      t.walk (t.startOf p) (p.parts.take count) = .error .notFound := by
    refine walk_ok_or_notFound (fun part hpart => h.limits.2 part (List.mem_of_mem_take hpart)) fun less hless => ?_
    have hless' : less < count ∧ less < p.parts.length := Nat.lt_min.1 (by simpa using hless)
    rw [List.take_take, Nat.min_eq_left (Nat.le_of_lt hless'.1)]
    exact h.free less hless'.2
  rw [h.reach_upTo]
  obtain ⟨place, hplace⟩ | hmissing := hwalk
  · exact .inl ⟨place, by rw [hplace]; rfl⟩
  · exact .inr (by rw [hmissing]; rfl)

theorem exists_reach_succ (h : t.Accepts p) (hcount : count < p.parts.length) (hdir : t.entry (p.upTo count) = .ok .directory) :
    ∃ place, t.reach (p.upTo (count + 1)) = .ok place := by
  obtain ⟨dir, hget, -, hstep⟩ := walk_take_succ hcount hdir
  have hname : Charset.Utf8.size p.parts[count] ≤ nameLimit := h.limits.2 _ (List.getElem_mem hcount)
  rw [h.reach_upTo, hstep, walk_singleton, hget]
  dsimp only
  rw [if_neg (Nat.not_lt.2 hname)]
  split
  · exact ⟨_, rfl⟩
  · split <;> exact ⟨_, rfl⟩

/-! ### Making directories -/

/-- Nothing but directories on the way has been made, so the file can still be put at the path. -/
theorem of_differsBy (h : t.Accepts p) (hdiffers : DiffersBy ⟨(· = p), fun _ _ => False⟩ t u) : u.Accepts p := by
  refine ⟨hdiffers.keepsDirs.hasCwd h.cwd, h.limits, h.no_null, fun count hcount => ?_, ?_, ?_⟩
  · rw [hdiffers.cwd]
    cases hdiffers.change ((p.upTo count).normalize t.cwd) with
    | same hsame =>
      rw [hsame]
      exact h.free count hcount
    | directory q less _ _ _ _ hnew => simp [hnew]
    | file q content hholds _ _ _ => exact hholds.elim
  · rw [hdiffers.cwd]
    cases hdiffers.change (p.normalize t.cwd) with
    | same hsame =>
      rw [hsame]
      exact h.no_directory
    | directory q count hq habove hreach _ _ =>
      obtain rfl : q = p := hq
      have hplace := normalize_of_reach hreach
      rw [hdiffers.cwd] at hplace
      exact absurd hplace (h.apart count habove)
    | file q content hholds _ _ _ => exact hholds.elim
  · rw [hdiffers.cwd]
    exact h.apart

theorem makeDir_or (h : t.Accepts p) (hcount : count < p.parts.length) (hreach : t.reach (p.upTo count) = .ok place) :
    (∃ made, t.makeDir (p.upTo count) = .ok made) ∨
      t.makeDir (p.upTo count) = .error (.os .exists) ∧ t.acceptDir (p.upTo count) (.os .exists) = .ok () := by
  have hfree := h.free count hcount
  rw [normalize_of_reach hreach] at hfree
  exact makeDir_or_acceptDir hreach hfree

theorem makeAncestor (h : t.Accepts p) (hcount : count < p.parts.length) : (t.makeAncestor p.parent count).2 = .ok () := by
  induction count with
  | zero => rfl
  | succ count ih =>
    have hdir : (⟨p.parent.anchor, p.parent.parts.take (count + 1)⟩ : Path) = p.upTo (count + 1) := Path.upTo_parent hcount
    rw [Tree.makeAncestor, hdir]
    obtain ⟨place, hreach⟩ | hmissing := h.exists_reach_or (count + 1)
    · obtain ⟨made, hmade⟩ | ⟨hexists, haccept⟩ := h.makeDir_or hcount hreach
      · rw [hmade]
      · rw [hexists]
        exact haccept
    · have hmake : t.makeDir (p.upTo (count + 1)) = .error (.os .notFound) := by rw [makeDir, hmissing]; rfl
      have hless : count < p.parts.length := Nat.lt_of_succ_lt hcount
      have habove : t.makeAncestor p.parent count = ((t.makeAncestor p.parent count).1, .ok ()) := Prod.ext rfl (ih hless)
      have haccepts := h.of_differsBy (differsBy_makeAncestor (h.cwd.hasStart p) rfl hless)
      have hentry := entry_of_makeAncestor h.cwd habove
      rw [Path.upTo_parent hless] at hentry
      rw [hmake, habove]
      generalize (t.makeAncestor p.parent count).1 = above at haccepts hentry
      obtain ⟨place, hreach⟩ := haccepts.exists_reach_succ hless hentry
      obtain ⟨made, hmade⟩ | ⟨hexists, haccept⟩ := haccepts.makeDir_or hcount hreach
      · simp only [hmade]
      · simp only [hexists]
        exact haccept

/-! ### Copying -/

theorem parts_pos (h : t.Accepts p) : 0 < p.parts.length := by
  by_contra hzero
  have hparts : p.parts = [] := List.length_eq_zero_iff.1 (Nat.eq_zero_of_not_pos hzero)
  have hnormal : p.normalize t.cwd = t.startOf p := by rw [Path.normalize, hparts]; rfl
  refine h.no_directory ?_
  rw [hnormal, startOf]
  split
  · exact h.cwd
  · exact t.get?_root

theorem exists_writeFile (h : t.Accepts p) (hparent : t.entry p.parent = .ok .directory) (content : Bytes) :
    ∃ after, t.writeFile p content = .ok after := by
  have hpos := h.parts_pos
  have hupTo : p.upTo (p.parts.length - 1) = p.parent := by rw [Path.upTo, Path.parent, List.dropLast_eq_take]
  have hwhole : p.upTo (p.parts.length - 1 + 1) = p := by rw [Nat.sub_add_cancel hpos, Path.upTo, List.take_length]
  obtain ⟨place, hreach⟩ := h.exists_reach_succ (Nat.sub_lt hpos Nat.one_pos) (hupTo ▸ hparent)
  rw [hwhole] at hreach
  have hfree := h.no_directory
  rw [normalize_of_reach hreach] at hfree
  refine ⟨t.insert place (.file content), ?_⟩
  rw [writeFile, hreach]
  cases hget : t.get? place with
  | none => simp [bind, Except.bind, hget, pure, Except.pure]
  | some entry =>
    cases entry with
    | directory => exact absurd hget hfree
    | file old => simp [bind, Except.bind, hget, pure, Except.pure]

theorem makeDirs (h : t.Accepts p) : t.makeDirs p.parent = ((t.makeDirs p.parent).1, .ok ()) := by
  refine Prod.ext rfl (h.makeAncestor ?_)
  rw [Path.parent, List.length_dropLast]
  exact Nat.sub_lt h.parts_pos Nat.one_pos

/-- A file from elsewhere is copied byte for byte to where the tree accepts one, and stays what it was. -/
theorem copyFile (h : t.Accepts dest) (hread : t.read source = .ok content) (helsewhere : dest.normalize t.cwd ≠ source.normalize t.cwd) :
    ∃ after, t.copyFile source dest = (after, .ok ()) ∧ after.read dest = .ok content ∧ after.read source = .ok content := by
  obtain ⟨origin, horigin, hget⟩ := readAt_eq_ok_iff.1 hread
  have hdirs := h.makeDirs
  have hgrows : Grows t (t.makeDirs dest.parent).1 := grows_of_makeAncestor (p := dest.parent) (h.cwd.hasStart dest) _
  have haccepts := h.of_differsBy (differsBy_makeDirs (h.cwd.hasStart dest) rfl)
  have hparent := entry_of_makeDirs h.cwd hdirs
  rw [Tree.copyFile, belowNewDirs, hdirs]
  generalize (t.makeDirs dest.parent).1 = above at hgrows haccepts hparent
  have horigin' := reach_of_keepsDirs hgrows.keepsDirs horigin
  have hget' := hgrows.get? origin _ hget
  obtain ⟨after, hwrite⟩ := haccepts.exists_writeFile hparent content
  obtain ⟨place, hplace, hkeeps, hafter⟩ := get?_of_writeFile (haccepts.cwd.hasStart dest) hwrite
  have hne : origin ≠ place := by
    rintro rfl
    refine helsewhere ?_
    rw [← hgrows.cwd, normalize_of_reach hplace, normalize_of_reach horigin']
  have hcopy : above.copyInto (above.reach source) dest = .ok after :=
    (copyInto_eq_writeFile horigin' hget' hplace hne).trans hwrite
  refine ⟨after, by simp only [hcopy], ?_, ?_⟩
  · exact readAt_eq_ok_iff.2 ⟨place, reach_of_keepsDirs hkeeps hplace, by rw [hafter, if_pos rfl]⟩
  · exact readAt_eq_ok_iff.2 ⟨origin, reach_of_keepsDirs hkeeps horigin', by rw [hafter, if_neg hne, hget']⟩

end Accepts

end Quotation.Tree
