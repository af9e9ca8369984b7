import Quotation.Proofs.Batch.Destination
import Quotation.Proofs.Tree.Again
import Quotation.Proofs.Tree.SameFile

/-!
# Writing over a file

New content for a file goes to a temporary file beside it, the name of which is ten bytes longer and which is reached from the root. A file can be written over exactly if the system takes that name and that path (`RoomBeside`, `writeLines_over_file`), so one of 246 bytes or more cannot, although it can be read and copied like any other.
-/

namespace Quotation

theorem Path.mem_foldl_step {names : List Text} {place : Place} {name : Text} (h : name ∈ names.foldl step place) :
    name ∈ place ∨ name ∈ names ∧ name ≠ up ∧ name ≠ stay := by
  induction names generalizing place with
  | nil => exact .inl h
  | cons first rest ih =>
    obtain hmem | ⟨hmem, hplain⟩ := ih h
    · rw [step] at hmem
      split at hmem
      · exact .inl (List.dropLast_subset place hmem)
      · next hup =>
        split at hmem
        · exact .inl hmem
        · next hstay =>
          obtain hmem | hmem := List.mem_append.1 hmem
          · exact .inl hmem
          · obtain rfl := List.mem_singleton.1 hmem
            exact .inr ⟨List.mem_cons_self, hup, hstay⟩
    · exact .inr ⟨List.mem_cons_of_mem first hmem, hplain⟩

namespace Tree

open Outcome

/-- A name of the kind that places are made up from. -/
structure IsPlain (name : Text) : Prop where
  not_up : name ≠ Path.up
  not_stay : name ≠ Path.stay
  short : Charset.Utf8.size name ≤ nameLimit
  no_null : name.any (· = '\x00') = false

variable {t : Tree} {p : Path} {place dir : Place} {content old : Bytes} {encoding : Option Text}

/-! ### Walking from the root -/

theorem isPlain_of_reach (hstart : ∀ name ∈ t.startOf p, IsPlain name) (h : t.reach p = .ok place) :
    ∀ name ∈ place, IsPlain name := by
  obtain ⟨hnull, -, hwalk⟩ := reach_eq_ok_iff.1 h
  intro name hname
  rw [t.walk_eq_foldl _ _ _ hwalk] at hname
  obtain hname | ⟨hname, hup, hstay⟩ := Path.mem_foldl_step hname
  · exact hstart name hname
  · exact ⟨hup, hstay, size_le_of_walk hwalk name hname hup hstay, Bool.eq_false_iff.2 (List.any_eq_false.1 hnull name hname)⟩

theorem isPlain_of_reach_cwd (hcwd : t.reach (Path.ofPlace t.cwd) = .ok t.cwd) (h : t.reach p = .ok place) :
    ∀ name ∈ place, IsPlain name := by
  refine isPlain_of_reach ?_ h
  rw [startOf]
  split
  · exact isPlain_of_reach (p := Path.ofPlace t.cwd) (fun _ hname => absurd hname List.not_mem_nil) hcwd
  · exact fun _ hname => absurd hname List.not_mem_nil

theorem walk_root_append (hget : t.get? dir = some .directory) (hplain : ∀ name ∈ dir, IsPlain name)
    (rest : List Text) : t.walk [] (dir ++ rest) = t.walk dir rest := by
  induction dir using List.reverseRecOn generalizing rest with
  | nil => rfl
  | append_singleton dir name ih =>
    obtain ⟨hdir, hname⟩ := List.forall_mem_append.1 hplain
    obtain ⟨hup, hstay, hshort, -⟩ := hname name (List.mem_singleton_self name)
    have habove : t.get? dir = some .directory := by
      have hdrop := t.get?_dropLast _ (by rw [hget]; rfl)
      rwa [List.dropLast_concat] at hdrop
    rw [List.append_assoc, ih habove hdir, List.singleton_append, walk, habove]
    simp only [if_neg hup, if_neg hstay, if_neg (Nat.not_lt.2 hshort)]

/-- What keeps a new name in such a directory from being reached is its size or that of the whole path. -/
theorem reach_root_concat {name : Text} (hget : t.get? dir = some .directory) (hplain : ∀ part ∈ dir, IsPlain part)
    (hname : name ≠ Path.up ∧ name ≠ Path.stay) (hnull : name.any (· = '\x00') = false) :
    t.reach (Path.ofPlace (dir ++ [name])) =
      if Charset.Utf8.size name ≤ nameLimit ∧ Charset.Utf8.size (Path.ofPlace (dir ++ [name])).toText ≤ pathLimit then
        .ok (dir ++ [name])
      else .error (.os .nameTooLong) := by
  have hclean : (Path.ofPlace (dir ++ [name])).hasNull = false := by
    refine List.any_append.trans (Bool.or_eq_false_iff.2 ⟨?_, by rw [List.any_cons, hnull, List.any_nil]; rfl⟩)
    exact List.any_eq_false.2 fun part hpart => Bool.eq_false_iff.1 (hplain part hpart).no_null
  have hwalk : t.walk (t.startOf (Path.ofPlace (dir ++ [name]))) (Path.ofPlace (dir ++ [name])).parts = t.walk dir [name] :=
    walk_root_append hget hplain [name]
  rw [reach_eq, hclean, hwalk, walk_singleton, hget]
  simp only [Bool.false_eq_true, if_false, if_neg hname.1, if_neg hname.2]
  by_cases hlong : pathLimit < Charset.Utf8.size (Path.ofPlace (dir ++ [name])).toText
  · rw [if_pos hlong, if_neg fun h => Nat.not_le_of_lt hlong h.2]
  · by_cases hwide : nameLimit < Charset.Utf8.size name
    · rw [if_neg hlong, if_pos hwide, if_neg fun h => Nat.not_le_of_lt hwide h.1]
      rfl
    · rw [if_neg hlong, if_neg hwide, if_pos ⟨Nat.le_of_not_lt hwide, Nat.le_of_not_lt hlong⟩]
      rfl

/-! ### Room for a temporary file -/

/-- The file at `p` stands in the directory `dir` and goes by the last name of the path. -/
structure StandsIn (t : Tree) (p : Path) (dir : Place) (content : Bytes) : Prop where
  reach : t.reach p = .ok (dir ++ [p.name])
  file : t.get? (dir ++ [p.name]) = some (.file content)
  directory : t.get? dir = some .directory
  walk : t.walk (t.startOf p) p.parts.dropLast = .ok dir
  parts : p.parts ≠ []
  name : p.name ≠ Path.up

theorem exists_standsIn (hcwd : t.HasCwd) (hread : t.read p = .ok content) : ∃ dir, t.StandsIn p dir content := by
  obtain ⟨place, hreach, hget⟩ := readAt_eq_ok_iff.1 hread
  have hparts := parts_ne_nil_of_isFile hcwd.isFile_here (isFile_of_read hread)
  obtain ⟨hwalk, hplace, hup, -⟩ := walk_dropLast_of_file hreach hget hparts
  have hdir : t.get? place.dropLast = some .directory := t.get?_dropLast place (by rw [hget]; rfl)
  exact ⟨place.dropLast, hplace ▸ hreach, hplace ▸ hget, hdir, hwalk, hparts, hup⟩

/-- The system takes the name and the path of a temporary file beside the file at `p`. -/
def RoomBeside (t : Tree) (p : Path) : Prop :=
  Charset.Utf8.size p.name + 10 ≤ nameLimit ∧ Charset.Utf8.size (Path.ofPlace (p.normalize t.cwd)).toText + 10 ≤ pathLimit

instance (t : Tree) (p : Path) : Decidable (t.RoomBeside p) := inferInstanceAs (Decidable (_ ∧ _))

theorem StandsIn.entry_parent (h : t.StandsIn p dir content) : t.entry p.parent = .ok .directory := by
  obtain ⟨hnull, hshort, -⟩ := reach_eq_ok_iff.1 h.reach
  have hparent : p.parent = p.upTo (p.parts.length - 1) := by rw [Path.upTo, Path.parent, List.dropLast_eq_take]
  have hclean : p.parent.hasNull = false := by
    rw [Path.hasNull, List.any_eq_false] at hnull ⊢
    exact fun part hpart => hnull part (List.dropLast_subset _ hpart)
  refine entryAt_eq_ok_iff.2 ⟨dir, reach_eq_ok_iff.2 ⟨hclean, ?_, h.walk⟩, h.directory⟩
  rw [hparent]
  exact Path.IsShort.upTo hshort _

theorem size_ofPlace_concat (dir : Place) {name other : Text} {more : Nat}
    (h : Charset.Utf8.size other = Charset.Utf8.size name + more) :
    Charset.Utf8.size (Path.ofPlace (dir ++ [other])).toText = Charset.Utf8.size (Path.ofPlace (dir ++ [name])).toText + more := by
  obtain ⟨front, hfront⟩ := Text.exists_join_concat '/' dir
  rw [Path.ofPlace, Path.ofPlace, Path.toText_of_ne_nil .root (by simp), Path.toText_of_ne_nil .root (by simp), hfront, hfront]
  simp only [Charset.Utf8.size_append, h, Nat.add_assoc]

/-- Beside a file a temporary file can be made exactly if there is room, whatever its name ends in. -/
theorem StandsIn.reach_temporaryNamed (h : t.StandsIn p dir content) (habsolute : t.reach (Path.ofPlace t.cwd) = .ok t.cwd)
    (hsuffix : IsSuffix suffix) :
    t.reach (t.temporaryNamed p suffix) =
      if t.RoomBeside p then .ok (t.temporaryNamed p suffix).parts else .error (.os .nameTooLong) := by
  obtain ⟨hdirs, hname⟩ := List.forall_mem_append.1 (isPlain_of_reach_cwd habsolute h.reach)
  have hnull : (temporaryName p.name suffix).any (· = '\x00') = false := by
    rw [any_null_temporaryName hsuffix]
    exact (hname p.name (List.mem_singleton_self _)).no_null
  have hroom : t.RoomBeside p ↔ Charset.Utf8.size (temporaryName p.name suffix) ≤ nameLimit ∧
      Charset.Utf8.size (Path.ofPlace (dir ++ [temporaryName p.name suffix])).toText ≤ pathLimit := by
    rw [RoomBeside, normalize_of_reach h.reach, size_ofPlace_concat _ (size_temporaryName hsuffix), size_temporaryName hsuffix]
  have hparent : p.parent.normalize t.cwd = dir := (t.walk_eq_foldl _ _ _ h.walk).symm
  rw [temporaryNamed, hparent, reach_root_concat h.directory hdirs (temporaryName_ne hsuffix) hnull]
  exact if_congr hroom.symm rfl rfl

/-- A file is written over with any text that the charset has, provided that there is room beside it; else it is left as it is. -/
theorem writeLines_over_file {lines : List Text} (hcwd : t.HasCwd) (habsolute : t.reach (Path.ofPlace t.cwd) = .ok t.cwd)
    (hread : t.read p = .ok old) (hencoded : encoded (textOfLines lines) encoding = .ok content) :
    (t.RoomBeside p → (t.writeLines p lines encoding).2 = .ok ()) ∧
      (¬ t.RoomBeside p → t.writeLines p lines encoding = (t, .error (.os .nameTooLong))) := by
  obtain ⟨dir, hfile⟩ := exists_standsIn hcwd hread
  have hbeside : t.reach (t.temporary p) = if t.RoomBeside p then .ok (t.temporary p).parts else .error (.os .nameTooLong) :=
    hfile.reach_temporaryNamed habsolute isSuffix_replicate
  have hdirs := makeDirs_of_entry hfile.entry_parent
  refine ⟨fun hroom => ?_, fun hroom => ?_⟩
  · have hreplace : t.replaceFile p content = .ok (t.insert (dir ++ [p.name]) (.file content)) := by
      rw [replaceFile, writeFile, hfile.reach]
      simp [bind, Except.bind, hfile.parts, hfile.name, hfile.file, pure, Except.pure]
    have hwrite : t.writeText p (textOfLines lines) encoding = .ok (t.insert (dir ++ [p.name]) (.file content)) := by
      rw [writeText_eq, hbeside, if_pos hroom, hencoded]
      exact hreplace
    rw [writeLines, belowNewDirs, hdirs]
    dsimp only
    rw [hwrite]
  · have hwrite : t.writeText p (textOfLines lines) encoding = .error (.os .nameTooLong) := by
      rw [writeText_eq, hbeside, if_neg hroom]
      rfl
    rw [writeLines, belowNewDirs, hdirs]
    dsimp only
    rw [hwrite]

end Tree

end Quotation
