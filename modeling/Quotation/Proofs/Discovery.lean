import Mathlib.Data.List.Perm.Basic
import Quotation.Discovery
import Quotation.Proofs.Tree.Reading

/-!
# Files that are found

What a search finds are files below the directory that is searched (`file_of_mem_discover`), in an order that depends on their paths only. So two trees that have the same files there, as far as the search looks, give the same list (`discover_eq_of_mem_iff`).
-/

namespace Quotation

open Outcome

theorem Folder.pairwise_list (f : Folder) : f.list.Pairwise fun a b => a.1 ≠ b.1 := by
  have hothers : ∀ (name : Text) (inside others : List (Place × Entry)), (∀ a ∈ inside, a.1.head? = some name) →
      inside.Pairwise (fun a b => a.1 ≠ b.1) → others.Pairwise (fun a b => a.1 ≠ b.1) →
      (inside ++ others.filter fun a => a.1.head? ≠ some name).Pairwise fun a b => a.1 ≠ b.1 := by
    intro name inside others hhead hinside hothers
    refine List.pairwise_append.2 ⟨hinside, hothers.filter _, fun a ha b hb => ?_⟩
    intro hsame
    have hname : b.1.head? ≠ some name := by simpa using (List.mem_filter.1 hb).2
    exact hname (hsame ▸ hhead a ha)
  induction f with
  | empty => exact .nil
  | file name content others ih =>
    exact hothers name [([name], .file content)] others.list (by simp) (List.pairwise_singleton _ _) ih
  | folder name inside others ihInside ihOthers =>
    refine hothers name (([name], .directory) :: inside.list.map fun a => (name :: a.1, a.2)) others.list ?_ ?_ ihOthers
    · intro a ha
      obtain rfl | ha := List.mem_cons.1 ha
      · rfl
      · obtain ⟨b, -, rfl⟩ := List.mem_map.1 ha
        rfl
    · refine List.pairwise_cons.2 ⟨fun a ha => ?_, List.pairwise_map.2 (ihInside.imp fun hne heq => hne (List.cons.inj heq).2)⟩
      obtain ⟨⟨place, entry⟩, hmem, rfl⟩ := List.mem_map.1 ha
      have hne := ((inside.mem_list_iff place entry).1 hmem).1
      intro heq
      exact hne (List.cons.inj heq).2.symm

namespace Discovery

variable {t u : Tree} {root : Path} {place : Place} {includes excludes : List (Option Text)} {skipDir : Option Path}
  {parts : List Text} {found chosen : List (List Text)} {files : List Path}

/-! ### Files below a place -/

theorem eq_append_of_below {other : Place}
    (h : (if place <+: other ∧ other ≠ place then some (other.drop place.length) else none) = some parts) :
    other = place ++ parts ∧ parts ≠ [] := by
  split at h
  · next hbelow =>
    obtain ⟨⟨rest, rfl⟩, hne⟩ := hbelow
    obtain rfl : rest = parts := by simpa using h
    exact ⟨rfl, by simpa using hne⟩
  · cases h

theorem mem_filesBelow_iff :
    parts ∈ filesBelow t place ↔ parts ≠ [] ∧ ∃ content, t.get? (place ++ parts) = some (.file content) := by
  rw [filesBelow, List.mem_filterMap]
  constructor
  · rintro ⟨⟨other, entry⟩, hmem, hsome⟩
    obtain ⟨-, hget⟩ := (t.mem_entries_iff other entry).1 hmem
    cases entry with
    | directory => cases hsome
    | file content =>
      obtain ⟨rfl, hne⟩ := eq_append_of_below hsome
      exact ⟨hne, content, hget⟩
  · rintro ⟨hne, content, hget⟩
    refine ⟨(place ++ parts, .file content), (t.mem_entries_iff _ _).2 ⟨by simp [hne], hget⟩, ?_⟩
    simp [hne]

theorem nodup_filesBelow (t : Tree) (place : Place) : (filesBelow t place).Nodup := by
  refine t.root.pairwise_list.filterMap _ ?_
  rintro ⟨other, entry⟩ ⟨other', entry'⟩ hne parts hparts parts' hparts' rfl
  cases entry with
  | directory => cases hparts
  | file content =>
    cases entry' with
    | directory => cases hparts'
    | file content' => exact hne ((eq_append_of_below hparts).1.trans (eq_append_of_below hparts').1.symm)

/-! ### Choosing and sorting -/

theorem select_eq_ok_iff :
    select includes excludes found = .ok chosen ↔
      (∀ parts ∈ found, ∃ selected, isSelected includes excludes parts = .ok selected) ∧
        chosen = found.filter fun parts => isSelected includes excludes parts = .ok true := by
  induction found generalizing chosen with
  | nil =>
    rw [select, Except.ok.injEq]
    simp [eq_comm]
  | cons parts rest ih =>
    rw [select, bind_eq_ok_iff, List.forall_mem_cons]
    constructor
    · rintro ⟨selected, hselected, h⟩
      obtain ⟨others, hothers, h⟩ := bind_eq_ok_iff.1 h
      obtain ⟨hrest, rfl⟩ := ih.1 hothers
      refine ⟨⟨⟨selected, hselected⟩, hrest⟩, ?_⟩
      rw [← Except.ok.inj h, List.filter_cons, hselected]
      cases selected <;> rfl
    · rintro ⟨⟨⟨selected, hselected⟩, hrest⟩, rfl⟩
      refine ⟨selected, hselected, bind_eq_ok_iff.2 ⟨_, ih.2 ⟨hrest, rfl⟩, ?_⟩⟩
      rw [List.filter_cons, hselected]
      cases selected <;> rfl

theorem pathLe_antisymm {a b : List Text} (hab : pathLe a b = true) (hba : pathLe b a = true) : a = b :=
  Std.LawfulEqCmp.eq_of_compare (Std.OrientedCmp.isLE_antisymm hab hba)

theorem pairwise_mergeSort (found : List (List Text)) : (found.mergeSort pathLe).Pairwise fun a b => pathLe a b = true := by
  have htrans : ∀ a b c, pathLe a b = true → pathLe b c = true → pathLe a c = true := fun a b c => Std.TransCmp.isLE_trans
  have htotal : ∀ a b, (pathLe a b || pathLe b a) = true := by
    intro a b
    have hswap : compare b a = (compare a b).swap := Std.OrientedCmp.eq_swap
    rw [pathLe, pathLe, hswap]
    cases compare a b <;> rfl
  exact List.pairwise_mergeSort htrans htotal found

/-- Sorting paths makes their order before it forgotten. -/
theorem mergeSort_eq_of_perm (h : found.Perm chosen) : found.mergeSort pathLe = chosen.mergeSort pathLe := by
  have hperm := ((found.mergeSort_perm pathLe).trans h).trans (chosen.mergeSort_perm pathLe).symm
  exact hperm.eq_of_pairwise (fun a b _ _ => pathLe_antisymm) (pairwise_mergeSort found) (pairwise_mergeSort chosen)

/-! ### The search -/

def candidates (t : Tree) (skip : Option Place) (place : Place) : List (List Text) :=
  (filesBelow t place).filter fun parts => !isSkipped skip place (place ++ parts)

theorem mem_candidates_iff {skip : Option Place} :
    parts ∈ candidates t skip place ↔
      parts ≠ [] ∧ (∃ content, t.get? (place ++ parts) = some (.file content)) ∧ isSkipped skip place (place ++ parts) = false := by
  rw [candidates, List.mem_filter, mem_filesBelow_iff, Bool.not_eq_true', and_assoc]

theorem isSkipped_eq_false_iff {skip other : Place} (hne : skip ≠ place) :
    isSkipped (some skip) place other = false ↔ ¬ skip <+: other ∨ skip = other := by
  have hskipped : isSkipped (some skip) place other = true ↔ skip <+: other ∧ skip ≠ other := by
    simp [isSkipped, hne]
  rw [← Bool.not_eq_true, hskipped, not_and_or, not_not]

theorem allShort_eq_true_iff : allShort t root place = true ↔
    ∀ rest, place ++ rest ≠ [] → (t.get? (place ++ rest)).isSome →
      Charset.Utf8.size (root.within ⟨.here, rest⟩).toText ≤ pathLimit := by
  have hlisted : ∀ other : Place, (!place.isPrefixOf other ||
      decide (Charset.Utf8.size (root.within ⟨.here, other.drop place.length⟩).toText ≤ pathLimit)) = true ↔
      (place <+: other → Charset.Utf8.size (root.within ⟨.here, other.drop place.length⟩).toText ≤ pathLimit) := by
    intro other
    rw [Bool.or_eq_true, Bool.not_eq_true', ← Bool.not_eq_true, List.isPrefixOf_iff_prefix, decide_eq_true_iff, imp_iff_not_or]
  rw [allShort, List.all_eq_true]
  constructor
  · intro h rest hne hsome
    obtain ⟨entry, hget⟩ := Option.isSome_iff_exists.1 hsome
    have hshort := (hlisted _).1 (h (place ++ rest, entry) ((t.mem_entries_iff _ _).2 ⟨hne, hget⟩)) (List.prefix_append place rest)
    rwa [List.drop_left] at hshort
  · rintro h ⟨other, entry⟩ hmem
    obtain ⟨hne, hget⟩ := (t.mem_entries_iff other entry).1 hmem
    refine (hlisted other).2 ?_
    rintro ⟨rest, rfl⟩
    rw [List.drop_left]
    exact h rest hne (by rw [hget]; rfl)

theorem discover_eq_ok_iff (hdir : t.isDir root = .ok true) :
    discover t root includes excludes skipDir = .ok files ↔
      ∃ skip place chosen, skipDir.mapM t.resolve = .ok skip ∧ t.reach root = .ok place ∧ allShort t root place = true ∧
        select includes excludes (candidates t skip place) = .ok chosen ∧
        files = (chosen.mergeSort pathLe).map fun parts => ⟨.here, parts⟩ := by
  rw [discover, bind_eq_ok_iff]
  refine exists_congr fun skip => ?_
  rw [hdir]
  constructor
  · rintro ⟨hskip, h⟩
    obtain ⟨there, hthere, h⟩ := bind_eq_ok_iff.1 h
    obtain rfl := Except.ok.inj hthere
    rw [if_pos rfl] at h
    obtain ⟨place, hplace, h⟩ := bind_eq_ok_iff.1 h
    cases hshort : allShort t root place with
    | false => simp [hshort, throw, throwThe, MonadExceptOf.throw, bind, Except.bind] at h
    | true =>
      rw [hshort] at h
      obtain ⟨chosen, hchosen, h⟩ := bind_eq_ok_iff.1 h
      exact ⟨place, chosen, hskip, hplace, hshort, hchosen, (Except.ok.inj h).symm⟩
  · rintro ⟨place, chosen, hskip, hplace, hshort, hchosen, rfl⟩
    refine ⟨hskip, bind_eq_ok_iff.2 ⟨true, rfl, ?_⟩⟩
    rw [if_pos rfl]
    refine bind_eq_ok_iff.2 ⟨place, hplace, ?_⟩
    rw [hshort]
    exact bind_eq_ok_iff.2 ⟨chosen, hchosen, rfl⟩

/-- A search gives up where a path is too long to ask about. -/
theorem discover_of_not_allShort {skip : Option Place} (hdir : t.isDir root = .ok true) (hskip : skipDir.mapM t.resolve = .ok skip)
    (hreach : t.reach root = .ok place) (hshort : allShort t root place = false) :
    discover t root includes excludes skipDir = .error (.os .nameTooLong) := by
  rw [discover, hskip, hdir]
  simp only [bind, Except.bind, if_true, hreach, hshort, Bool.not_false]
  rfl

theorem file_of_mem_discover {p : Path} (hdir : t.isDir root = .ok true)
    (h : discover t root includes excludes skipDir = .ok files) (hp : p ∈ files) :
    ∃ skip place parts, skipDir.mapM t.resolve = .ok skip ∧ t.reach root = .ok place ∧ p = ⟨.here, parts⟩ ∧
      parts ∈ candidates t skip place := by
  obtain ⟨skip, place, chosen, hskip, hplace, -, hchosen, rfl⟩ := (discover_eq_ok_iff hdir).1 h
  obtain ⟨parts, hparts, rfl⟩ := List.mem_map.1 hp
  obtain ⟨-, rfl⟩ := select_eq_ok_iff.1 hchosen
  exact ⟨skip, place, parts, hskip, hplace, rfl, (List.mem_filter.1 (List.mem_mergeSort.1 hparts)).1⟩

theorem discover_eq_of_mem_iff (hdir : t.isDir root = .ok true) (h : discover t root includes excludes skipDir = .ok files)
    (hdir' : u.isDir root = .ok true) (hcwd : u.cwd = t.cwd) (hreach : u.reach root = t.reach root)
    (hshort : ∀ place, t.reach root = .ok place → allShort u root place = true)
    (hsame : ∀ skip place, skipDir.mapM t.resolve = .ok skip → t.reach root = .ok place → ∀ parts,
      parts ∈ candidates u skip place ↔ parts ∈ candidates t skip place) :
    discover u root includes excludes skipDir = .ok files := by
  obtain ⟨skip, place, chosen, hskip, hplace, -, hchosen, rfl⟩ := (discover_eq_ok_iff hdir).1 h
  have hresolve : u.resolve = t.resolve := Tree.resolve_eq_of_cwd hcwd
  have hperm : (candidates u skip place).Perm (candidates t skip place) :=
    (List.perm_ext_iff_of_nodup ((nodup_filesBelow u place).filter _) ((nodup_filesBelow t place).filter _)).2
      (hsame skip place hskip hplace)
  obtain ⟨hall, rfl⟩ := select_eq_ok_iff.1 hchosen
  refine (discover_eq_ok_iff hdir').2 ⟨skip, place, _, hresolve ▸ hskip, hreach.trans hplace, hshort place hplace,
    select_eq_ok_iff.2 ⟨fun parts hparts => hall parts (hperm.mem_iff.1 hparts), rfl⟩, ?_⟩
  rw [mergeSort_eq_of_perm (hperm.filter _)]

end Discovery

end Quotation
