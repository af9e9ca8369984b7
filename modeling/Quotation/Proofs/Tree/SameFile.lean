import Quotation.Proofs.Tree.Limits

/-!
# Paths to one file

Paths that are written differently may lead to one file, as an absolute path and one from the working directory do (`reach_absolute`). Each of them reaches the directory of the file without its last name (`walk_parent`), so what is looked up from there is the same as well (`SameFile.reach_within`), as long as no path is longer than the system takes.
-/

namespace Quotation.Tree

open Outcome

variable {t : Tree} {p q : Path} {place : Place}

/-! ### The directory of a file -/

/-- A file stands in the directory that the path without its last name reaches, and goes by that name. -/
theorem walk_dropLast_of_file {content : Bytes} (hreach : t.reach p = .ok place) (hget : t.get? place = some (.file content))
    (hparts : p.parts ≠ []) :
    t.walk (t.startOf p) p.parts.dropLast = .ok place.dropLast ∧ place = place.dropLast ++ [p.name] ∧
      p.name ≠ Path.up ∧ p.name ≠ Path.stay := by
  have hnoDir : t.get? place ≠ some .directory := by simp [hget]
  obtain ⟨-, -, hwalk⟩ := reach_eq_ok_iff.1 hreach
  obtain hnil | ⟨front, last, hconcat⟩ := List.eq_nil_or_concat p.parts
  · exact absurd hnil hparts
  · rw [List.concat_eq_append] at hconcat
    have hname : p.name = last := by rw [Path.name, hconcat, List.getLast?_concat, Option.getD_some]
    rw [hconcat, walk_append, bind_eq_ok_iff] at hwalk
    obtain ⟨dir, hdir, hlast⟩ := hwalk
    rw [hname, hconcat, List.dropLast_concat, hdir]
    rw [walk_singleton] at hlast
    split at hlast
    · cases hlast
    · cases hlast
    · next hentry =>
      split at hlast
      · obtain rfl := Except.ok.inj hlast
        exact absurd (t.get?_dropLast dir (by simp [hentry])) hnoDir
      · next hup =>
        split at hlast
        · exact absurd (Except.ok.inj hlast ▸ hentry) hnoDir
        · next hstay =>
          split at hlast
          · cases hlast
          · obtain rfl := Except.ok.inj hlast
            rw [List.dropLast_concat]
            exact ⟨rfl, rfl, hup, hstay⟩

theorem parts_ne_nil_of_isFile (hcwd : t.isFile Path.here = false) (hfile : t.isFile p = true) : p.parts ≠ [] := by
  intro hparts
  obtain ⟨content, hread⟩ := exists_read_of_isFile hfile
  obtain ⟨place, hreach, hget⟩ := entryAt_eq_ok_iff.1 (read_eq_ok_iff.1 hread)
  obtain ⟨-, -, hwalk⟩ := reach_eq_ok_iff.1 hreach
  rw [hparts] at hwalk
  obtain rfl := Except.ok.inj hwalk
  rw [startOf] at hget
  split at hget
  · have hhere : t.isFile Path.here = true := isFile_of_read (readAt_eq_ok_iff.2 ⟨t.cwd, rfl, hget⟩)
    simp [hcwd] at hhere
  · simp at hget

theorem walk_parent (hcwd : t.isFile Path.here = false) (hfile : t.isFile p = true) (hreach : t.reach p = .ok place) :
    t.walk (t.startOf p) p.parts.dropLast = .ok place.dropLast := by
  obtain ⟨content, hread⟩ := exists_read_of_isFile hfile
  obtain ⟨reached, hreached, hget⟩ := entryAt_eq_ok_iff.1 (read_eq_ok_iff.1 hread)
  obtain rfl : place = reached := Except.ok.inj (hreach.symm.trans hreached)
  exact (walk_dropLast_of_file hreach hget (parts_ne_nil_of_isFile hcwd hfile)).1

theorem reach_within_parent (hcwd : t.isFile Path.here = false) (hfile : t.isFile p = true) (hreach : t.reach p = .ok place)
    {parts : List Text} (hshort : (p.parent.within ⟨.here, parts⟩).IsShort) :
    t.reach (p.parent.within ⟨.here, parts⟩) =
      if Path.hasNull ⟨.here, parts⟩ then .error .nullInPath else (t.walk place.dropLast parts).mapError .os := by
  have hnull : p.parts.dropLast.any (fun part => part.any (· = '\x00')) = false := by
    have hall := (reach_eq_ok_iff.1 hreach).1
    rw [Path.hasNull, List.any_eq_false] at hall
    exact List.any_eq_false.2 fun part hpart => hall part (List.dropLast_subset _ hpart)
  have hnulls : (p.parent.within ⟨.here, parts⟩).hasNull = Path.hasNull ⟨.here, parts⟩ := by
    rw [Path.within_of_here, Path.hasNull, Path.hasNull, Path.parent, List.any_append, hnull, Bool.false_or]
  have hwalk : t.walk (t.startOf (p.parent.within ⟨.here, parts⟩)) (p.parent.within ⟨.here, parts⟩).parts =
      t.walk place.dropLast parts := by
    have hparent := walk_parent hcwd hfile hreach
    change t.walk (t.startOf p) (p.parts.dropLast ++ parts) = _
    rw [walk_append, hparent]
    rfl
  rw [reach_eq, hnulls, if_neg (Nat.not_lt.2 hshort), hwalk]

/-! ### The same file -/

structure SameFile (t : Tree) (p q : Path) : Prop where
  file : t.isFile p = true
  reach : t.reach q = t.reach p

theorem SameFile.entry (h : SameFile t p q) : t.entry q = t.entry p := by rw [Tree.entry, Tree.entry, h.reach]

theorem SameFile.isFile (h : SameFile t p q) : t.isFile q = true := by
  rw [Tree.isFile, h.entry]
  exact h.file

/-- From the directory of the same file a path leads to the same place. -/
theorem SameFile.reach_within (h : SameFile t p q) (hcwd : t.isFile Path.here = false) {r : Path}
    (hp : (p.parent.within r).IsShort) (hq : (q.parent.within r).IsShort) :
    t.reach (q.parent.within r) = t.reach (p.parent.within r) := by
  cases hr : r.isAbsolute with
  | true => rw [Path.within_of_isAbsolute hr, Path.within_of_isAbsolute hr]
  | false =>
    obtain ⟨anchor, parts⟩ := r
    obtain rfl : anchor = .here := by simpa [Path.isAbsolute] using hr
    obtain ⟨content, hread⟩ := exists_read_of_isFile h.file
    obtain ⟨place, hplace, -⟩ := entryAt_eq_ok_iff.1 (read_eq_ok_iff.1 hread)
    rw [reach_within_parent hcwd h.file hplace hp, reach_within_parent hcwd h.isFile (h.reach.trans hplace) hq]

/-! ### Absolute paths -/

/-- The path as it is written from the root, by way of the working directory if it starts there. -/
def absolute (t : Tree) (p : Path) : Path := (Path.ofPlace t.cwd).within p

theorem isAbsolute_absolute (t : Tree) (p : Path) : (t.absolute p).isAbsolute = true := by
  obtain ⟨anchor, parts⟩ := p
  cases anchor <;> rfl

theorem reach_absolute (hcwd : t.reach (Path.ofPlace t.cwd) = .ok t.cwd) (hshort : (t.absolute p).IsShort)
    (h : t.reach p = .ok place) : t.reach (t.absolute p) = .ok place := by
  obtain ⟨anchor, parts⟩ := p
  cases anchor with
  | root => exact h
  | doubleRoot => exact h
  | here =>
    obtain ⟨hnull, -, hwalk⟩ := reach_eq_ok_iff.1 h
    obtain ⟨hnullCwd, -, hwalkCwd⟩ := reach_eq_ok_iff.1 hcwd
    refine reach_eq_ok_iff.2 ⟨?_, hshort, ?_⟩
    · rw [Path.hasNull] at hnull hnullCwd ⊢
      exact List.any_append.trans (Bool.or_eq_false_iff.2 ⟨hnullCwd, hnull⟩)
    · change t.walk [] (t.cwd ++ parts) = .ok place
      rw [walk_append]
      exact bind_eq_ok_iff.2 ⟨t.cwd, hwalkCwd, hwalk⟩

end Quotation.Tree
