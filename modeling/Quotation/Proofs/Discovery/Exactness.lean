import Quotation.Proofs.Discovery
import Quotation.Proofs.Tree.Growth
import Quotation.Proofs.Tree.Limits

/-!
# What a search finds

With all globs given, a search returns unless a path that it has to ask about is too long, and then it finds exactly the files below its directory whose path or name some glob includes and none excludes, each once and in order (`discover_exact`). A directory that is left out takes the files inside of it away. This is meant for one inside the directory that is searched, but one above takes all files away (`exists_search_in_skipped`).
-/

namespace Quotation.Discovery

open Outcome

variable {t : Tree} {root dir p : Path} {place skip : Place} {includes excludes globs : List Text} {skipDir : Option Path}
  {parts : List Text} {found chosen : List (List Text)} {files : List Path}

/-! ### Globs -/

def Matches (globs : List Text) (p : Path) : Prop :=
  ∃ glob ∈ globs, (Glob.ofText glob).accepts p.toText = true ∨ (Glob.ofText glob).accepts p.name = true

instance (globs : List Text) (p : Path) : Decidable (Matches globs p) :=
  inferInstanceAs (Decidable (∃ glob ∈ globs, _))

theorem matchesAny_map_some (globs : List Text) (parts : List Text) :
    matchesAny (globs.map some) parts = .ok (decide (Matches globs ⟨.here, parts⟩)) := by
  have hmatches : decide (Matches globs ⟨.here, parts⟩) =
      ((globs.any fun glob => (Glob.ofText glob).accepts (Path.toText ⟨.here, parts⟩)) ||
        globs.any fun glob => (Glob.ofText glob).accepts (parts.getLast?.getD [])) := by
    rw [Bool.eq_iff_iff, decide_eq_true_iff, Bool.or_eq_true, List.any_eq_true, List.any_eq_true]
    simp only [Matches, Path.name, and_or_left, exists_or]
  rw [matchesAny, accepted_map_some, accepted_map_some, hmatches]
  cases globs.any fun glob => (Glob.ofText glob).accepts (Path.toText ⟨.here, parts⟩) <;> rfl

theorem isSelected_map_some (includes excludes : List Text) (parts : List Text) :
    isSelected (includes.map some) (excludes.map some) parts =
      .ok (decide (Matches includes ⟨.here, parts⟩ ∧ ¬ Matches excludes ⟨.here, parts⟩)) := by
  rw [isSelected, matchesAny_map_some, matchesAny_map_some, Bool.decide_and, decide_not]
  cases decide (Matches includes ⟨.here, parts⟩) <;> rfl

theorem select_map_some (includes excludes : List Text) (found : List (List Text)) :
    select (includes.map some) (excludes.map some) found =
      .ok (found.filter fun parts => Matches includes ⟨.here, parts⟩ ∧ ¬ Matches excludes ⟨.here, parts⟩) := by
  refine select_eq_ok_iff.2 ⟨fun parts _ => ⟨_, isSelected_map_some includes excludes parts⟩, ?_⟩
  simp only [isSelected_map_some, Except.ok.injEq, decide_eq_true_eq]

/-! ### Order -/

theorem pairwise_lt_mergeSort (h : found.Nodup) : (found.mergeSort pathLe).Pairwise fun a b => compare a b = .lt := by
  have hne : (found.mergeSort pathLe).Nodup := (found.mergeSort_perm pathLe).nodup_iff.2 h
  refine (pairwise_mergeSort found).imp₂ (fun a b hle hne => ?_) hne
  cases hcompare : compare a b with
  | lt => rfl
  | eq => exact absurd (Std.LawfulEqCmp.eq_of_compare hcompare) hne
  | gt =>
    rw [pathLe, hcompare] at hle
    cases hle

/-! ### The directory that is left out -/

theorem isSkipped_eq_true_iff : isSkipped (skipDir.map (Path.normalize t.cwd)) (root.normalize t.cwd) place = true ↔
    ∃ dir ∈ skipDir, dir.normalize t.cwd ≠ root.normalize t.cwd ∧ t.IsInside dir place := by
  cases skipDir with
  | none => simp [isSkipped]
  | some dir =>
    simp only [isSkipped, Option.map_some, Option.mem_some_iff, exists_eq_left', Tree.IsInside, Bool.and_eq_true,
      decide_eq_true_eq, List.isPrefixOf_iff_prefix, and_assoc]
    exact and_congr_right fun _ => and_congr_right fun _ => ne_comm

/-- A directory that is not above the one that is searched takes files away only if it lies inside. -/
theorem isInside_of_skipped (habove : ¬ t.IsInside dir (root.normalize t.cwd)) (hne : dir.normalize t.cwd ≠ root.normalize t.cwd)
    (h : t.IsInside dir (root.normalize t.cwd ++ parts)) : t.IsInside root (dir.normalize t.cwd) := by
  refine ⟨?_, hne⟩
  obtain hroot | hdir := List.prefix_or_prefix_of_prefix (List.prefix_append (root.normalize t.cwd) parts) h.1
  · exact hroot
  · exact absurd ⟨hdir, hne.symm⟩ habove

theorem isInside_of_above (habove : t.IsInside dir (root.normalize t.cwd)) (parts : List Text) :
    t.IsInside dir (root.normalize t.cwd ++ parts) := by
  obtain ⟨hbelow, hne⟩ := habove
  refine ⟨List.IsPrefix.trans hbelow (List.prefix_append _ parts), fun hsame => hne ?_⟩
  have hback : root.normalize t.cwd <+: dir.normalize t.cwd := hsame ▸ List.prefix_append _ parts
  exact hback.eq_of_length_le (List.IsPrefix.length_le hbelow)

/-! ### The search -/

/-- Everything below the directory can be asked about. -/
def IsSearchable (t : Tree) (root : Path) : Prop :=
  ∀ rest, (t.get? (root.normalize t.cwd ++ rest)).isSome → (root.within ⟨.here, rest⟩).IsShort

theorem allShort_iff_isSearchable (hdir : t.isDir root = .ok true) :
    allShort t root (root.normalize t.cwd) = true ↔ IsSearchable t root := by
  rw [allShort_eq_true_iff]
  refine ⟨fun h rest hsome => ?_, fun h rest _ hsome => h rest hsome⟩
  by_cases hnil : root.normalize t.cwd ++ rest = []
  · obtain rfl := (List.append_eq_nil_iff.1 hnil).2
    obtain ⟨-, hshort, -⟩ := Tree.reach_eq_ok_iff.1 (Tree.exists_reach_of_isDir hdir).1
    rw [Path.within_of_here, List.append_nil]
    exact hshort
  · exact h rest hnil hsome

/-- What a search that is given all its globs returns. -/
theorem discover_map_some_eq_ok_iff :
    discover t root (includes.map some) (excludes.map some) skipDir = .ok files ↔
      (∀ dir ∈ skipDir, dir.hasNull = false) ∧
        (t.isDir root = .ok false ∧ files = [] ∨
          t.isDir root = .ok true ∧ IsSearchable t root ∧
            files = (((candidates t (skipDir.map (Path.normalize t.cwd)) (root.normalize t.cwd)).filter fun parts =>
              Matches includes ⟨.here, parts⟩ ∧ ¬ Matches excludes ⟨.here, parts⟩).mergeSort pathLe).map fun parts => ⟨.here, parts⟩) := by
  cases hdir : t.isDir root with
  | error fault =>
    rw [discover, bind_eq_ok_iff, hdir]
    simp only [reduceCtorEq, false_and, or_self, and_false, iff_false]
    rintro ⟨skip, -, h⟩
    cases h
  | ok found =>
    cases found with
    | false =>
      rw [discover, bind_eq_ok_iff, hdir]
      constructor
      · rintro ⟨skip, hskip, h⟩
        exact ⟨(Tree.mapM_resolve_eq_ok_iff.1 hskip).1, .inl ⟨rfl, (Except.ok.inj h).symm⟩⟩
      · rintro ⟨hskip, ⟨-, rfl⟩ | ⟨hdir, -⟩⟩
        · exact ⟨_, Tree.mapM_resolve_eq_ok_iff.2 ⟨hskip, rfl⟩, rfl⟩
        · cases hdir
    | true =>
      obtain ⟨hreach, -⟩ := Tree.exists_reach_of_isDir hdir
      rw [discover_eq_ok_iff hdir, hreach]
      constructor
      · rintro ⟨skip, place, chosen, hskip, hplace, hshort, hchosen, rfl⟩
        obtain rfl := Except.ok.inj hplace
        obtain ⟨hnull, rfl⟩ := Tree.mapM_resolve_eq_ok_iff.1 hskip
        rw [select_map_some] at hchosen
        obtain rfl := Except.ok.inj hchosen
        exact ⟨hnull, .inr ⟨rfl, (allShort_iff_isSearchable hdir).1 hshort, rfl⟩⟩
      · rintro ⟨hnull, ⟨hfile, -⟩ | ⟨-, hshort, rfl⟩⟩
        · cases hfile
        · exact ⟨_, _, _, Tree.mapM_resolve_eq_ok_iff.2 ⟨hnull, rfl⟩, rfl, (allShort_iff_isSearchable hdir).2 hshort,
            select_map_some includes excludes _, rfl⟩

/-- By its path from the directory that is searched, a file below it that some glob includes and none excludes. -/
structure IsWanted (t : Tree) (root : Path) (includes excludes : List Text) (p : Path) : Prop where
  searched : t.isDir root = .ok true
  relative : p.anchor = .here
  below : p.parts ≠ []
  file : ∃ content, t.get? (root.normalize t.cwd ++ p.parts) = some (.file content)
  included : Matches includes p
  notExcluded : ¬ Matches excludes p

theorem mem_discover_iff (h : discover t root (includes.map some) (excludes.map some) skipDir = .ok files) :
    p ∈ files ↔ IsWanted t root includes excludes p ∧
      ¬ ∃ dir ∈ skipDir, dir.normalize t.cwd ≠ root.normalize t.cwd ∧ t.IsInside dir (root.normalize t.cwd ++ p.parts) := by
  obtain ⟨-, ⟨hdir, rfl⟩ | ⟨hdir, -, rfl⟩⟩ := discover_map_some_eq_ok_iff.1 h
  · refine iff_of_false List.not_mem_nil ?_
    rintro ⟨hwanted, -⟩
    cases hdir.symm.trans hwanted.searched
  · simp only [List.mem_map, List.mem_mergeSort, List.mem_filter, decide_eq_true_iff, mem_candidates_iff,
      ← Bool.not_eq_true, isSkipped_eq_true_iff]
    constructor
    · rintro ⟨parts, ⟨⟨hbelow, hfile, hskip⟩, hincluded, hexcluded⟩, rfl⟩
      exact ⟨⟨hdir, rfl, hbelow, hfile, hincluded, hexcluded⟩, hskip⟩
    · rintro ⟨⟨-, hrelative, hbelow, hfile, hincluded, hexcluded⟩, hskip⟩
      obtain ⟨anchor, parts⟩ := p
      obtain rfl : anchor = .here := hrelative
      exact ⟨parts, ⟨⟨hbelow, hfile, hskip⟩, hincluded, hexcluded⟩, rfl⟩

theorem pairwise_lt_of_discover (h : discover t root (includes.map some) (excludes.map some) skipDir = .ok files) :
    files.Pairwise fun p q => compare p.parts q.parts = .lt := by
  obtain ⟨-, ⟨-, rfl⟩ | ⟨-, -, rfl⟩⟩ := discover_map_some_eq_ok_iff.1 h
  · exact .nil
  · refine List.pairwise_map.2 (pairwise_lt_mergeSort ?_)
    exact ((nodup_filesBelow t _).filter _).filter _

/-- A search returns exactly if everything below its directory can be asked about, and then it finds the wanted files and no others, each once and in the order of their names. A directory to leave out takes away the files inside of it if it is inside itself, nothing if it is the directory that is searched or stands elsewhere, and everything if it is above. -/
theorem discover_exact (t : Tree) (root : Path) (includes excludes : List Text) (skipDir : Option Path) :
    ((∃ files, discover t root (includes.map some) (excludes.map some) skipDir = .ok files) ↔
        (∀ dir ∈ skipDir, dir.hasNull = false) ∧ (t.isDir root = .ok false ∨ t.isDir root = .ok true ∧ IsSearchable t root)) ∧
      ∀ files, discover t root (includes.map some) (excludes.map some) skipDir = .ok files →
        (files.Pairwise fun p q => compare p.parts q.parts = .lt) ∧
          ((∃ dir ∈ skipDir, t.IsInside dir (root.normalize t.cwd)) → files = []) ∧
          ((∀ dir ∈ skipDir, ¬ t.IsInside dir (root.normalize t.cwd)) → ∀ p, p ∈ files ↔
            IsWanted t root includes excludes p ∧
              ¬ ∃ dir ∈ skipDir, t.IsInside root (dir.normalize t.cwd) ∧
                t.IsInside dir (root.normalize t.cwd ++ p.parts)) := by
  refine ⟨?_, fun files h => ⟨pairwise_lt_of_discover h, ?_, fun habove p => ?_⟩⟩
  · simp only [discover_map_some_eq_ok_iff, exists_and_left, exists_or, exists_eq, and_true]
  · rintro ⟨dir, hdir, habove⟩
    refine List.eq_nil_iff_forall_not_mem.2 fun p hp => ((mem_discover_iff h).1 hp).2 ?_
    exact ⟨dir, hdir, habove.2.symm, isInside_of_above habove p.parts⟩
  · rw [mem_discover_iff h]
    refine and_congr_right fun _ => not_congr (exists_congr fun dir => and_congr_right fun hdir => ?_)
    constructor
    · rintro ⟨hne, hinside⟩
      exact ⟨isInside_of_skipped (habove dir hdir) hne hinside, hinside⟩
    · rintro ⟨hroot, hinside⟩
      exact ⟨hroot.2, hinside⟩

def shelfTree : Tree :=
  ⟨[], .folder "s".toList (.file "a".toList (Charset.Utf8.encode "x\n".toList)
    (.folder "o".toList (.file "b".toList (Charset.Utf8.encode "y\n".toList) .empty) .empty)) .empty⟩

theorem discover_exact_in_shelfTree :
    ∃ files, discover shelfTree (Path.ofText "s".toList) (["*".toList].map some) ([].map some) (some (Path.ofText "s/o".toList)) =
        .ok files ∧
      ∀ p, p ∈ files ↔ IsWanted shelfTree (Path.ofText "s".toList) ["*".toList] [] p ∧
        ¬ ∃ dir ∈ some (Path.ofText "s/o".toList), shelfTree.IsInside (Path.ofText "s".toList) (dir.normalize shelfTree.cwd) ∧
          shelfTree.IsInside dir ((Path.ofText "s".toList).normalize shelfTree.cwd ++ p.parts) := by
  have hfound : discover shelfTree (Path.ofText "s".toList) (["*".toList].map some) ([].map some)
      (some (Path.ofText "s/o".toList)) = .ok [Path.ofText "a".toList] := by decide +kernel
  refine ⟨_, hfound, ((discover_exact _ _ _ _ _).2 _ hfound).2.2 ?_⟩
  intro dir hdir
  obtain rfl := Option.mem_some_iff.1 hdir
  rw [Tree.IsInside]
  decide

/-- The working directory is left out of a search of a directory below it, and the file there is not found. -/
theorem exists_search_in_skipped :
    discover shelfTree (Path.ofText "s".toList) (["*".toList].map some) ([].map some) (some Path.here) = .ok [] ∧
      IsWanted shelfTree (Path.ofText "s".toList) ["*".toList] [] (Path.ofText "a".toList) ∧
      ¬ shelfTree.IsInside (Path.ofText "s".toList) (Path.here.normalize shelfTree.cwd) := by
  refine ⟨by decide +kernel, ⟨by decide +kernel, rfl, by decide, ⟨_, rfl⟩, by decide +kernel, by decide +kernel⟩, ?_⟩
  rw [Tree.IsInside]
  decide

end Quotation.Discovery
