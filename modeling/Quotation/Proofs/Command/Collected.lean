import Quotation.Command.Collect
import Quotation.Proofs.Batch.InPlace
import Quotation.Proofs.Discovery

/-!
# Collected files

However operands are written, what is collected from them are files below the base directory, each under the one path that goes down from there (`isInput_of_mem_collect`), and each of them once (`nodup_of_collect`).
-/

namespace Quotation

open Outcome

/-- No file or directory is called by a name that stands for a directory itself or the one above it. -/
def Tree.PlainNames (t : Tree) : Prop := ∀ place, (t.get? place).isSome → Path.up ∉ place ∧ Path.stay ∉ place

theorem Tree.plainNames_iff {t : Tree} :
    t.PlainNames ↔ ∀ listed ∈ t.entries, Path.up ∉ listed.1 ∧ Path.stay ∉ listed.1 := by
  constructor
  · rintro h ⟨place, entry⟩ hlisted
    exact h place (Option.isSome_iff_exists.2 ⟨entry, ((t.mem_entries_iff place entry).1 hlisted).2⟩)
  · intro h place hsome
    obtain ⟨entry, hentry⟩ := Option.isSome_iff_exists.1 hsome
    by_cases hroot : place = []
    · simp [hroot]
    · exact h (place, entry) ((t.mem_entries_iff place entry).2 ⟨hroot, hentry⟩)

instance (t : Tree) : Decidable t.PlainNames := decidable_of_iff' _ Tree.plainNames_iff

theorem Tree.exists_file_of_isFile {t : Tree} {p : Path} (h : t.isFile p = true) :
    ∃ content, t.get? (p.normalize t.cwd) = some (.file content) := by
  obtain ⟨content, hread⟩ := exists_read_of_isFile h
  obtain ⟨place, hreach, hget⟩ := readAt_eq_ok_iff.1 hread
  rw [normalize_of_reach hreach]
  exact ⟨content, hget⟩

theorem nodup_eraseDups {α : Type} [DecidableEq α] (xs : List α) : xs.eraseDups.Nodup := by
  cases xs with
  | nil => simp
  | cons first rest =>
    rw [List.eraseDups_cons, List.nodup_cons, List.mem_eraseDups]
    exact ⟨by simp, nodup_eraseDups (rest.filter fun x => !x == first)⟩
termination_by xs.length
decreasing_by exact Nat.lt_succ_of_le (List.length_filter_le _ _)

namespace Command

variable {t : Tree} {base full p : Path} {search : Search} {operands : List Text} {operand : Text} {files : List Path} {dir : List Text}

/-- A file below the base directory, named by the path that goes down to it. -/
structure IsInput (t : Tree) (base p : Path) : Prop where
  goesDown : p.GoesDown
  parts_ne_nil : p.parts ≠ []
  file : ∃ content, t.get? (base.normalize t.cwd ++ p.parts) = some (.file content)

theorem isInput_of_file {parts : List Text} {content : Bytes} (hnames : t.PlainNames) (hne : parts ≠ [])
    (h : t.get? (base.normalize t.cwd ++ parts) = some (.file content)) : IsInput t base ⟨.here, parts⟩ := by
  obtain ⟨hup, hstay⟩ := hnames _ (Option.isSome_iff_exists.2 ⟨_, h⟩)
  exact ⟨⟨rfl, fun hmem => hup (List.mem_append_right _ hmem), fun hmem => hstay (List.mem_append_right _ hmem)⟩, hne, content, h⟩

theorem normalize_of_below? (h : below? t base full = some dir) : full.normalize t.cwd = base.normalize t.cwd ++ dir := by
  rw [below?] at h
  split at h
  · next place root hplace hroot =>
    rw [Tree.normalize_of_resolve hplace, Tree.normalize_of_resolve hroot]
    split at h
    · next hbelow =>
      obtain ⟨rest, rfl⟩ := hbelow
      obtain rfl : rest = dir := by simpa using h
      rfl
    · cases h
  · cases h

section

variable (hfull : search.base.within (Path.ofText operand) = full) (hbelow : below? t search.base full = some dir)

include hfull hbelow

theorem collectOne_of_isDir_error {fault : Fault} (h : t.isDir full = .error fault) :
    collectOne t search operand = .error (.fault fault) := by
  simp only [collectOne, hfull, hbelow, h]

theorem collectOne_of_isDir (h : t.isDir full = .ok true) :
    collectOne t search operand =
      ((Discovery.discover t full search.includes search.excludes search.skipDir).map fun files =>
        files.map fun file => Path.within ⟨.here, dir⟩ file).mapError .fault := by
  simp only [collectOne, hfull, hbelow, h]

theorem collectOne_of_not_isDir (h : t.isDir full = .ok false) :
    collectOne t search operand = if t.isFile full then .ok [⟨.here, dir⟩] else .error (.refusal (.missing full)) := by
  simp only [collectOne, hfull, hbelow, h]

end

theorem isInput_of_mem_collectOne (hnames : t.PlainNames) (hbase : t.isDir search.base = .ok true)
    (h : collectOne t search operand = .ok files) (hp : p ∈ files) : IsInput t search.base p := by
  rw [collectOne] at h
  dsimp only at h
  split at h
  · cases h
  · next dir hbelow =>
    have hplace := normalize_of_below? hbelow
    split at h
    · cases h
    · next hdir =>
      obtain ⟨found, hfound, rfl⟩ := map_eq_ok_iff.1 (mapError_eq_ok_iff.1 h)
      obtain ⟨file, hfile, rfl⟩ := List.mem_map.1 hp
      obtain ⟨skip, place, parts, -, hreach, rfl, hparts⟩ := Discovery.file_of_mem_discover hdir hfound hfile
      obtain ⟨hne, ⟨content, hget⟩, -⟩ := Discovery.mem_candidates_iff.1 hparts
      rw [← Tree.normalize_of_reach hreach, hplace, List.append_assoc] at hget
      exact isInput_of_file hnames (by simp [hne]) hget
    · split at h
      · next hfile =>
        obtain rfl := Except.ok.inj h
        obtain rfl := List.mem_singleton.1 hp
        obtain ⟨content, hget⟩ := Tree.exists_file_of_isFile hfile
        rw [hplace] at hget
        refine isInput_of_file hnames ?_ hget
        rintro rfl
        rw [List.append_nil, (Tree.exists_reach_of_isDir hbase).2] at hget
        cases hget
      · cases h

theorem isInput_of_mem_collect (hnames : t.PlainNames) (hbase : t.isDir search.base = .ok true)
    (h : collect t search operands = .ok files) (hp : p ∈ files) : IsInput t search.base p := by
  obtain ⟨found, hfound, h⟩ := bind_eq_ok_iff.1 h
  obtain rfl := Except.ok.inj h
  have hone : ∀ operand, Ends (fun found => ∀ p ∈ found, IsInput t search.base p) (fun _ => True) (collectOne t search operand) := by
    intro operand
    cases hoperand : collectOne t search operand with
    | ok found => exact fun p hp => isInput_of_mem_collectOne hnames hbase hoperand hp
    | error e => exact trivial
  obtain ⟨part, hpart, hp⟩ := List.mem_flatten.1 (List.mem_eraseDups.1 hp)
  exact (Ends.mapM fun operand _ => hone operand).of_ok hfound part hpart p hp

/-- Without operands, what is collected is what a search of the base directory finds. -/
theorem collect_nil (hbase : t.isDir search.base = .ok true) :
    collect t search [] = ((Discovery.discover t search.base search.includes search.excludes search.skipDir).map fun found =>
      (found.map fun file => Path.within ⟨.here, []⟩ file).eraseDups).mapError .fault := by
  have hfull : search.base.within (Path.ofText Path.stay) = search.base := by
    have hstay : Path.ofText Path.stay = ⟨.here, []⟩ := by decide
    rw [hstay, Path.within_of_here, List.append_nil]
  have hbelow : below? t search.base search.base = some [] := by
    rw [below?, Tree.resolve_of_reach (Tree.exists_reach_of_isDir hbase).1]
    simp
  have hone : operandsOf [] = [Path.stay] := rfl
  rw [collect, hone, List.mapM_cons, List.mapM_nil, collectOne_of_isDir hfull hbelow hbase]
  cases Discovery.discover t search.base search.includes search.excludes search.skipDir with
  | error fault => rfl
  | ok found => simp [Except.map, Except.mapError, bind, Except.bind, pure, Except.pure]

theorem collect_nil_eq_ok_iff (hbase : t.isDir search.base = .ok true) :
    collect t search [] = .ok files ↔
      ∃ found, Discovery.discover t search.base search.includes search.excludes search.skipDir = .ok found ∧
        files = (found.map fun file => Path.within ⟨.here, []⟩ file).eraseDups := by
  rw [collect_nil hbase, mapError_eq_ok_iff, map_eq_ok_iff]
  simp only [eq_comm]

theorem collect_eq_singleton {skip : Option Place} {place : Place} {parts : List Text} (hbase : t.isDir search.base = .ok true)
    (hskip : search.skipDir.mapM t.resolve = .ok skip) (hreach : t.reach search.base = .ok place)
    (hshort : Discovery.allShort t search.base place = true)
    (hselect : Discovery.select search.includes search.excludes (Discovery.candidates t skip place) = .ok [parts]) :
    collect t search [] = .ok [⟨.here, parts⟩] := by
  refine (collect_nil_eq_ok_iff hbase).2 ⟨[⟨.here, parts⟩], ?_, ?_⟩
  · refine (Discovery.discover_eq_ok_iff hbase).2 ⟨skip, place, [parts], hskip, hreach, hshort, hselect, ?_⟩
    rw [List.mergeSort_singleton]
    rfl
  · simp [Path.within_of_here, List.eraseDups_cons]

theorem collect_of_not_allShort {skip : Option Place} {place : Place} (hbase : t.isDir search.base = .ok true)
    (hskip : search.skipDir.mapM t.resolve = .ok skip) (hreach : t.reach search.base = .ok place)
    (hshort : Discovery.allShort t search.base place = false) :
    collect t search [] = .error (.fault (.os .nameTooLong)) := by
  rw [collect_nil hbase, Discovery.discover_of_not_allShort hbase hskip hreach hshort]
  rfl

theorem nodup_of_collect (h : collect t search operands = .ok files) : files.Nodup := by
  obtain ⟨found, -, h⟩ := bind_eq_ok_iff.1 h
  obtain rfl := Except.ok.inj h
  exact nodup_eraseDups _

end Command

end Quotation
