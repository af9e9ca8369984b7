import Quotation.Proofs.Tree.Again

/-!
# All or nothing

Putting a file at a path ends in one of two ways (`PutsWhole`). Either the file is there and has the whole of its content, or the operation has failed and no file is new, gone or changed. The directories above the path are made first and stay in both cases; where double dots lead through a directory, as in `o/z/../d`, it is made as well, though it is not above the file in the tree (`exists_directory_off_the_way`).
-/

namespace Quotation.Tree

open Outcome

/-- A directory is new at the place because a path above `p` leads there. It is above `p` in the tree as well, unless double dots follow. -/
def MadeOnTheWay (p : Path) (before after : Tree) (place : Place) : Prop :=
  before.get? place = none ∧ after.get? place = some .directory ∧
    ∃ count < p.parts.length, after.reach (p.upTo count) = .ok place ∧
      (Path.up ∉ p.parts.drop count → place <+: p.normalize before.cwd)

/-- How an operation ends that puts a file at `p`, the content of which is as `holds` says in the tree that it leaves. -/
inductive PutsWhole (p : Path) (holds : Tree → Bytes → Prop) (t : Tree) : Tree × Except Fault Unit → Prop where
  | done {u : Tree} {content : Bytes} (cwd : u.cwd = t.cwd) (whole : holds u content) (read : u.read p = .ok content)
      (others : ∀ place, place ≠ p.normalize t.cwd → u.get? place = t.get? place ∨ MadeOnTheWay p t u place) :
      PutsWhole p holds t (u, .ok ())
  | failed {u : Tree} {fault : Fault} (cwd : u.cwd = t.cwd)
      (all : ∀ place, u.get? place = t.get? place ∨ MadeOnTheWay p t u place) : PutsWhole p holds t (u, .error fault)

/-- The file that a path was found to lead to is another one than that at `p`, and holds the content. -/
def HoldsElsewhere (t : Tree) (p : Path) (reached : Except Fault Place) (content : Bytes) : Prop :=
  ∃ origin, reached = .ok origin ∧ origin ≠ p.normalize t.cwd ∧ t.get? origin = some (.file content)

variable {t u above : Tree} {p : Path} {place : Place} {content : Bytes} {encoding : Option Text}
  {holds : Tree → Bytes → Prop}

/-! ### Nothing else -/

theorem DiffersBy.same_or_made {puts : Puts} (h : DiffersBy puts t u) (hdest : ∀ q, puts.dest q → q = p)
    (hholds : ∀ q bytes, puts.holds q bytes → q = p ∧ place ≠ p.normalize t.cwd) :
    u.get? place = t.get? place ∨ MadeOnTheWay p t u place := by
  cases h.change place with
  | same hsame => exact .inl hsame
  | directory q count hq habove hreach habsent hnew =>
    obtain rfl := hdest q hq
    refine .inr ⟨habsent, hnew, count, habove, hreach, fun hup => ?_⟩
    rw [← h.cwd]
    exact isPrefix_of_reach_upTo hreach hup
  | file q bytes hq hreach _ _ =>
    obtain ⟨rfl, hother⟩ := hholds q bytes hq
    rw [← h.cwd, normalize_of_reach hreach] at hother
    exact absurd rfl hother

theorem same_or_made_makeDirs (hcwd : t.HasCwd) (p : Path) (place : Place) :
    (t.makeDirs p.parent).1.get? place = t.get? place ∨ MadeOnTheWay p t (t.makeDirs p.parent).1 place := by
  have hdirs : DiffersBy ⟨(· = p), fun _ _ => False⟩ t (t.makeDirs p.parent).1 := differsBy_makeDirs (hcwd.hasStart p) rfl
  exact hdirs.same_or_made (fun _ => id) fun _ _ => False.elim

theorem PutsWhole.of_sameView {result : Tree × Except Fault Unit} (h : PutsWhole p holds t (u, result.2))
    (hview : SameView u result.1) (hholds : ∀ content, holds u content → holds result.1 content) : PutsWhole p holds t result := by
  obtain ⟨v, outcome⟩ := result
  have hmade : ∀ place, u.get? place = t.get? place ∨ MadeOnTheWay p t u place →
      v.get? place = t.get? place ∨ MadeOnTheWay p t v place := by
    intro place hplace
    obtain hsame | ⟨habsent, hnew, count, habove, hreach, hway⟩ := hplace
    · exact .inl ((hview.get? place).trans hsame)
    · exact .inr ⟨habsent, (hview.get? place).trans hnew, count, habove, reach_of_keepsDirs hview.keepsDirs hreach, hway⟩
  cases h with
  | @done _ content hcwd hcontent hread hothers =>
    obtain ⟨reached, hreach, hget⟩ := readAt_eq_ok_iff.1 hread
    refine .done (hview.cwd.trans hcwd) (hholds content hcontent) ?_ fun place hplace => hmade place (hothers place hplace)
    exact readAt_eq_ok_iff.2 ⟨reached, reach_of_keepsDirs hview.keepsDirs hreach, (hview.get? reached).trans hget⟩
  | failed hcwd hall => exact .failed (hview.cwd.trans hcwd) fun place => hmade place (hall place)

/-! ### The last step -/

theorem putsWhole_of_makeDirs {fault : Fault} (hcwd : t.HasCwd) (habove : (t.makeDirs p.parent).1 = above) :
    PutsWhole p holds t (above, .error fault) := by
  subst habove
  have hgrows : Grows t (t.makeDirs p.parent).1 := grows_of_makeAncestor (hcwd.hasStart p.parent) _
  exact .failed hgrows.cwd (same_or_made_makeDirs hcwd p)

/-- Once the directories are there, writing the file completes what is to be done. -/
theorem putsWhole_of_writeFile (hcwd : t.HasCwd) (habove : (t.makeDirs p.parent).1 = above)
    (hwrite : above.writeFile p content = .ok u) (hholds : holds u content) : PutsWhole p holds t (u, .ok ()) := by
  subst habove
  have hgrows : Grows t (t.makeDirs p.parent).1 := grows_of_makeAncestor (hcwd.hasStart p.parent) _
  have hstart := (hgrows.keepsDirs.hasCwd hcwd).hasStart p
  obtain ⟨place, hreach, hkeeps, hget⟩ := get?_of_writeFile hstart hwrite
  have hdiffers : DiffersBy ⟨(· = p), fun q _ => q = p⟩ t u :=
    (differsBy_makeDirs (hcwd.hasStart p) rfl).trans (differsBy_of_writeFile hstart rfl hwrite)
  refine .done (hkeeps.cwd.trans hgrows.cwd) hholds ?_ fun other hother => ?_
  · exact readAt_eq_ok_iff.2 ⟨place, reach_of_keepsDirs hkeeps hreach, by rw [hget, if_pos rfl]⟩
  · exact hdiffers.same_or_made (fun _ => id) fun _ _ hq => ⟨hq, hother⟩

theorem putsWhole_belowNewDirs {finish : Tree → Except Fault Tree} (hcwd : t.HasCwd)
    (h : ∀ above after, Grows t above → finish above = .ok after →
      ∃ content, above.writeFile p content = .ok after ∧ holds after content) :
    PutsWhole p holds t (t.belowNewDirs p finish) := by
  have hgrows : Grows t (t.makeDirs p.parent).1 := grows_of_makeAncestor (hcwd.hasStart p.parent) _
  rw [belowNewDirs]
  split
  · next above fault hdirs => exact putsWhole_of_makeDirs hcwd (congrArg Prod.fst hdirs)
  · next above hdirs =>
    rw [hdirs] at hgrows
    split
    · next after hfinish =>
      obtain ⟨content, hwrite, hholds⟩ := h above after hgrows hfinish
      exact putsWhole_of_writeFile hcwd (congrArg Prod.fst hdirs) hwrite hholds
    · exact putsWhole_of_makeDirs hcwd (congrArg Prod.fst hdirs)

/-! ### Writing -/

theorem isTextOf_of_encoded {lines : List Text} (h : encoded (textOfLines lines) encoding = .ok content) :
    IsTextOf encoding lines content := by
  simp only [encoded, bind_eq_ok_iff, mapError_eq_ok_iff] at h
  obtain ⟨name, hname, charset, hchoose, hencode⟩ := h
  exact ⟨charset, ⟨name, hname, hchoose⟩, textOfLines_eq_flatMap lines ▸ hencode⟩

theorem putsWhole_writeLines (hcwd : t.HasCwd) (p : Path) (lines : List Text) (encoding : Option Text) :
    PutsWhole p (fun _ => IsTextOf encoding lines) t (t.writeLines p lines encoding) := by
  refine putsWhole_belowNewDirs hcwd fun above after hgrows hwrite => ?_
  obtain ⟨content, htext, hfile⟩ := exists_isTextOf_of_writeText hwrite
  exact ⟨content, hfile, htext⟩

/-- The temporary file is gone in every case, whatever the system calls it. -/
theorem putsWhole_writeLinesStaged (hcwd : t.HasCwd) (suffix : Text) (p : Path) (lines : List Text) (encoding : Option Text) :
    PutsWhole p (fun _ => IsTextOf encoding lines) t (t.writeLinesStaged suffix p lines encoding) := by
  have hgrows : Grows t (t.makeDirs p.parent).1 := grows_of_makeAncestor (hcwd.hasStart p.parent) _
  rw [writeLinesStaged]
  split
  · next above fault hdirs => exact putsWhole_of_makeDirs hcwd (congrArg Prod.fst hdirs)
  · next above hdirs =>
    rw [hdirs] at hgrows
    have hstart (q : Path) : above.HasStart q := (hgrows.keepsDirs.hasCwd hcwd).hasStart q
    split
    · exact putsWhole_of_makeDirs hcwd (congrArg Prod.fst hdirs)
    · next temporary made hmake =>
      obtain ⟨hreach, habsent, hmore⟩ := hasMore_of_makeFile (hstart _) hmake
      obtain ⟨fault, -, houtcome, hview⟩ | ⟨after, hreplace, houtcome, hview⟩ :=
        sameView_fillStaged (textOfLines lines) encoding (hstart p) habsent (get?_dropLast_of_reach (hstart _) hreach) hmore
          (entry_of_makeDirs hcwd hdirs)
      · refine PutsWhole.of_sameView ?_ hview fun _ => id
        rw [houtcome]
        exact putsWhole_of_makeDirs hcwd (congrArg Prod.fst hdirs)
      · obtain ⟨content, hencoded, hreplace⟩ := bind_eq_ok_iff.1 hreplace
        refine PutsWhole.of_sameView ?_ hview fun _ => id
        rw [houtcome]
        exact putsWhole_of_writeFile hcwd (congrArg Prod.fst hdirs) (writeFile_of_replaceFile hreplace) (isTextOf_of_encoded hencoded)

/-! ### Copying -/

theorem exists_holdsElsewhere_of_copyInto {reached reached' : Except Fault Place} (hstart : t.HasStart p)
    (h : t.copyInto reached p = .ok u) (hkept : ∀ origin, KeepsDirs t u → reached = .ok origin → reached' = .ok origin) :
    ∃ content, t.writeFile p content = .ok u ∧ u.HoldsElsewhere p reached' content := by
  obtain ⟨origin, content, horigin, hget, hother, hwrite⟩ := exists_of_copyInto h
  obtain ⟨place, hreach, hkeeps, hafter⟩ := get?_of_writeFile hstart hwrite
  have hne : origin ≠ place := by
    rintro rfl
    exact hother hreach
  refine ⟨content, hwrite, origin, hkept origin hkeeps horigin, ?_, ?_⟩
  · rwa [hkeeps.cwd, normalize_of_reach hreach]
  · rw [hafter, if_neg hne, hget]

theorem reachWritten_of_keepsDirs {written : Text} (h : KeepsDirs t u) (hreach : t.reachWritten written = .ok place) :
    u.reachWritten written = .ok place := by
  rw [reachWritten] at hreach ⊢
  split at hreach
  · cases hreach
  · next hnull =>
    split at hreach
    · cases hreach
    · next hempty =>
      split at hreach
      · cases hreach
      · next hlong =>
        rw [if_neg hnull, if_neg hempty, if_neg hlong, mapError_eq_ok_iff, h.cwd]
        exact walk_of_keepsDirs h (mapError_eq_ok_iff.1 hreach)

theorem putsWhole_copyFile (hcwd : t.HasCwd) (source p : Path) :
    PutsWhole p (fun u => u.HoldsElsewhere p (u.reach source)) t (t.copyFile source p) :=
  putsWhole_belowNewDirs hcwd fun _ _ hgrows hcopy =>
    exists_holdsElsewhere_of_copyInto ((hgrows.keepsDirs.hasCwd hcwd).hasStart p) hcopy fun _ => reach_of_keepsDirs

theorem putsWhole_copyWritten (hcwd : t.HasCwd) (source : Text) (p : Path) :
    PutsWhole p (fun u => u.HoldsElsewhere p (u.reachWritten source)) t (t.copyWritten source p) :=
  putsWhole_belowNewDirs hcwd fun _ _ hgrows hcopy =>
    exists_holdsElsewhere_of_copyInto ((hgrows.keepsDirs.hasCwd hcwd).hasStart p) hcopy fun _ => reachWritten_of_keepsDirs

/-! ### Both writers -/

/-- However writing or copying ends, the file is at its path with the whole of its content, or no file has changed. This is so for lines that are written by way of a temporary file too, and for a copy of a file onto itself, which fails. -/
theorem writers_put_whole (hcwd : t.HasCwd) (p : Path) :
    (∀ lines encoding, PutsWhole p (fun _ => IsTextOf encoding lines) t (t.writeLines p lines encoding)) ∧
    (∀ suffix lines encoding, PutsWhole p (fun _ => IsTextOf encoding lines) t (t.writeLinesStaged suffix p lines encoding)) ∧
    (∀ source, PutsWhole p (fun u => u.HoldsElsewhere p (u.reach source)) t (t.copyFile source p)) ∧
    ∀ source, PutsWhole p (fun u => u.HoldsElsewhere p (u.reachWritten source)) t (t.copyWritten source p) :=
  ⟨putsWhole_writeLines hcwd p, fun suffix => putsWhole_writeLinesStaged hcwd suffix p,
    fun source => putsWhole_copyFile hcwd source p, fun source => putsWhole_copyWritten hcwd source p⟩

def sourceTree : Tree := ⟨[], .file "s".toList (Charset.Utf8.encode "x\n".toList) .empty⟩

theorem putsWhole_sourceTree :
    PutsWhole (Path.ofText "o/d".toList) (fun u => u.HoldsElsewhere (Path.ofText "o/d".toList) (u.reach (Path.ofText "s".toList)))
        sourceTree (sourceTree.copyFile (Path.ofText "s".toList) (Path.ofText "o/d".toList)) ∧
      (sourceTree.copyFile (Path.ofText "s".toList) (Path.ofText "o/d".toList)).2 = .ok () ∧
      PutsWhole (Path.ofText "s".toList) (fun u => u.HoldsElsewhere (Path.ofText "s".toList) (u.reach (Path.ofText "s".toList)))
        sourceTree (sourceTree.copyFile (Path.ofText "s".toList) (Path.ofText "s".toList)) ∧
      (sourceTree.copyFile (Path.ofText "s".toList) (Path.ofText "s".toList)).2 = .error .sameFile :=
  have hcwd : sourceTree.HasCwd := rfl
  ⟨(writers_put_whole hcwd _).2.2.1 _, by decide, (writers_put_whole hcwd _).2.2.1 _, by decide⟩

/-- The directory `o/z` has to be there for `o/z/../d`, but it is not above that file. -/
theorem exists_directory_off_the_way :
    ∃ t u : Tree, t.HasCwd ∧ t.writeLines (Path.ofText "o/z/../d".toList) ["x".toList] (some "utf-8".toList) = (u, .ok ()) ∧
      u.reach (Path.ofText "o/z/../d".toList) = .ok ["o".toList, "d".toList] ∧ t.get? ["o".toList, "z".toList] = none ∧
      u.get? ["o".toList, "z".toList] = some .directory ∧ ¬ ["o".toList, "z".toList] <+: ["o".toList, "d".toList] := by
  refine ⟨⟨[], .empty⟩, (Tree.writeLines ⟨[], .empty⟩ (Path.ofText "o/z/../d".toList) ["x".toList] (some "utf-8".toList)).1, rfl, ?_⟩
  decide +kernel

end Quotation.Tree
