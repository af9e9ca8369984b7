import Quotation.Proofs.Command.Collected
import Quotation.Proofs.Command.Modes
import Quotation.Proofs.Discovery.Exactness

/-!
# Which files are collected

Each operand either stands for files, or something hinders collecting from it (`Hinders`): it leads out of the base directory, nothing is there, or the system cannot be asked about what is there. The first operand with a hindrance ends the collection; without one, the files of all operands are collected, each once, in the order in which the operands first mention them (`collect_exact`). Paths within the limits of the system are no hindrance, but those below a directory are longer the longer the operand is that names it (`exists_file_out_of_reach`).
-/

namespace Quotation

open Outcome

/-! ### The order of first mention -/

section

variable {ι α : Type} {gives : ι → α → Prop} {lt : α → α → Prop} {source : ι} {sources : List ι} {lists : List (List α)} {a b : α}

/-- The first source to give one of the two gives `a`, and if it gives `b` as well, then in a later place. -/
def ComesFirst (gives : ι → α → Prop) (lt : α → α → Prop) (sources : List ι) (a b : α) : Prop :=
  ∃ earlier source later, sources = earlier ++ source :: later ∧ (∀ other ∈ earlier, ¬ gives other a ∧ ¬ gives other b) ∧
    gives source a ∧ (gives source b → lt a b)

theorem ComesFirst.head (ha : gives source a) (hb : gives source b → lt a b) : ComesFirst gives lt (source :: sources) a b :=
  ⟨[], source, sources, rfl, by simp, ha, hb⟩

theorem ComesFirst.tail (ha : ¬ gives source a) (hb : ¬ gives source b) (h : ComesFirst gives lt sources a b) :
    ComesFirst gives lt (source :: sources) a b := by
  obtain ⟨earlier, other, later, rfl, hearlier, hother⟩ := h
  exact ⟨source :: earlier, other, later, rfl, List.forall_mem_cons.2 ⟨⟨ha, hb⟩, hearlier⟩, hother⟩

theorem eraseDups_sublist [DecidableEq α] (xs : List α) : xs.eraseDups.Sublist xs := by
  cases xs with
  | nil => simp
  | cons first rest =>
    rw [List.eraseDups_cons]
    exact ((eraseDups_sublist _).trans List.filter_sublist).cons_cons first
termination_by xs.length
decreasing_by exact Nat.lt_succ_of_le (List.length_filter_le _ _)

/-- Sorted lists that are put together keep the order of first mention when repetitions are dropped. -/
theorem pairwise_comesFirst [DecidableEq α]
    (h : List.Forall₂ (fun source list => (∀ a, a ∈ list ↔ gives source a) ∧ list.Pairwise lt) sources lists) (keep : α → Bool) :
    (lists.flatten.filter keep).eraseDups.Pairwise (ComesFirst gives lt sources) := by
  -- What an earlier list has given is filtered out of the later ones, so the induction is over every filter.
  induction h generalizing keep with
  | nil => simp
  | @cons source list sources lists hfirst _ ih =>
    obtain ⟨hmem, hsorted⟩ := hfirst
    rw [List.flatten_cons, List.filter_append, List.eraseDups_append, List.removeAll, List.filter_filter]
    have hgives : ∀ a ∈ (list.filter keep).eraseDups, gives source a := fun a ha =>
      (hmem a).1 (List.mem_filter.1 (List.mem_eraseDups.1 ha)).1
    have hlater : ∀ b ∈ (lists.flatten.filter fun a => !List.elem a (list.filter keep) && keep a).eraseDups, ¬ gives source b := by
      intro b hb hgiven
      obtain ⟨-, hkept⟩ := List.mem_filter.1 (List.mem_eraseDups.1 hb)
      simp [(hmem b).2 hgiven] at hkept
    refine List.pairwise_append.2 ⟨?_, ?_, fun a ha b hb => .head (hgives a ha) fun hgiven => absurd hgiven (hlater b hb)⟩
    · exact ((hsorted.sublist List.filter_sublist).sublist (eraseDups_sublist _)).imp_of_mem
        fun ha _ hlt => .head (hgives _ ha) fun _ => hlt
    · exact (ih _).imp_of_mem fun ha hb => .tail (hlater _ ha) (hlater _ hb)

end

theorem compare_append_left (names a b : List Text) : compare (names ++ a) (names ++ b) = compare a b := by
  induction names with
  | nil => rfl
  | cons name names ih => simpa using ih

namespace Path

variable {base p : Path} {names : List Text}

theorem parts_within (h : p.anchor = .here) : (base.within p).parts = base.parts ++ p.parts := by
  obtain ⟨anchor, parts⟩ := p
  obtain rfl : anchor = .here := h
  rw [within_of_here]

theorem GoesDown.eq_of_parts_eq (hdown : p.GoesDown) (h : p.parts = names) : p = ⟨.here, names⟩ := by
  obtain ⟨anchor, parts⟩ := p
  obtain rfl := h
  exact congrArg (mk · parts) hdown.1

end Path

namespace Tree

variable {t : Tree} {p : Path} {fault : Fault}

theorem PlainNames.goesDown (hnames : t.PlainNames) {place : Place} {names : List Text} (h : (t.get? (place ++ names)).isSome) :
    Path.GoesDown ⟨.here, names⟩ := by
  obtain ⟨hup, hstay⟩ := hnames _ h
  exact ⟨rfl, fun hmem => hup (List.mem_append_right _ hmem), fun hmem => hstay (List.mem_append_right _ hmem)⟩

theorem isDir_of_entry_error (h : t.entry p = .error fault) (hlong : fault ≠ .os .nameTooLong) : t.isDir p = .ok false := by
  rw [isDir, h]
  split
  · next heq => cases heq
  · rfl
  · next heq => exact absurd (Except.error.inj heq) hlong
  · rfl

theorem isDir_of_entry_tooLong (h : t.entry p = .error (.os .nameTooLong)) : t.isDir p = .error (.os .nameTooLong) := by
  rw [isDir, h]

theorem isFile_of_entry_error (h : t.entry p = .error fault) : t.isFile p = false := by
  rw [isFile, h]

end Tree

namespace Command

variable {t : Tree} {base full p : Path} {includes excludes operands : List Text} {operand : Text} {dir : List Text}
  {files : List Path} {e : CollectError}

/-! ### What operands stand for -/

def globsOf (includes : List Text) : List Text := if includes.isEmpty then [['*']] else includes

/-- What a command line looks for that gives these globs and no output directory. -/
def searchFor (base : Path) (includes excludes : List Text) : Search :=
  searchOf { includes := includes.map some, excludes := excludes.map some } {} base

theorem searchFor_eq : searchFor base includes excludes = ⟨base, (globsOf includes).map some, excludes.map some, none⟩ := by
  cases includes <;> rfl

/-- The path names a place in the base directory, or the base directory itself. -/
def LeadsInto (t : Tree) (base full : Path) : Prop := ∃ place, t.resolve full = .ok place ∧ base.normalize t.cwd <+: place

theorem below?_eq_some_iff (hbase : t.isDir base = .ok true) :
    below? t base full = some dir ↔ t.resolve full = .ok (base.normalize t.cwd ++ dir) := by
  rw [below?, Tree.resolve_of_reach (Tree.exists_reach_of_isDir hbase).1]
  cases t.resolve full with
  | error fault => simp
  | ok place =>
    dsimp only
    split
    · next hbelow =>
      obtain ⟨rest, rfl⟩ := hbelow
      simp
    · next hbelow =>
      simp only [reduceCtorEq, Except.ok.injEq, false_iff]
      rintro rfl
      exact hbelow (List.prefix_append _ _)

theorem leadsInto_iff (hbase : t.isDir base = .ok true) : LeadsInto t base full ↔ ∃ dir, below? t base full = some dir := by
  simp only [below?_eq_some_iff hbase]
  constructor
  · rintro ⟨_, hplace, dir, rfl⟩
    exact ⟨dir, hplace⟩
  · rintro ⟨dir, hplace⟩
    exact ⟨_, hplace, List.prefix_append _ _⟩

/-- Nothing can be collected from the path. -/
inductive Hinders (t : Tree) (base full : Path) : CollectError → Prop where
  /-- It names no place in the base directory. -/
  | outside (h : ¬ LeadsInto t base full) : Hinders t base full (.refusal (.outside full))
  /-- Nothing is there. -/
  | missing (hinto : LeadsInto t base full) (hnone : ∀ entry, t.entry full ≠ .ok entry)
      (hlong : t.entry full ≠ .error (.os .nameTooLong)) : Hinders t base full (.refusal (.missing full))
  /-- The system cannot be asked whether anything is there. -/
  | tooLong (hinto : LeadsInto t base full) (hlong : t.entry full = .error (.os .nameTooLong)) :
      Hinders t base full (.fault (.os .nameTooLong))
  /-- It leads to a directory, but the system cannot be asked about something below. -/
  | unsearchable (hinto : LeadsInto t base full) (hdir : t.isDir full = .ok true) (hlong : ¬ Discovery.IsSearchable t full) :
      Hinders t base full (.fault (.os .nameTooLong))

/-- The path stands for a file below the base directory, named by the way down from there. -/
inductive Yields (t : Tree) (base : Path) (includes excludes : List Text) (full p : Path) : Prop where
  /-- It names the file, which then needs not match any glob. -/
  | named (hdown : p.GoesDown) (hfile : t.isFile full = true) (hplace : full.normalize t.cwd = base.normalize t.cwd ++ p.parts)
  /-- It names a directory with the file somewhere below, where its path or its name matches the globs. -/
  | found (hdown : p.GoesDown) (q : Path) (hwanted : Discovery.IsWanted t full includes excludes q)
      (hplace : full.normalize t.cwd ++ q.parts = base.normalize t.cwd ++ p.parts)

theorem exists_hinders_of_entry_error {fault : Fault} (hinto : LeadsInto t base full) (h : t.entry full = .error fault) :
    ∃ e, Hinders t base full e := by
  by_cases hlong : fault = .os .nameTooLong
  · exact ⟨_, .tooLong hinto (hlong ▸ h)⟩
  · refine ⟨_, .missing hinto (fun entry hok => ?_) fun hsame => ?_⟩
    · cases h.symm.trans hok
    · exact hlong (Except.error.inj (h.symm.trans hsame))

theorem not_hinders_fault (h : full.WithinLimits) (hsearchable : t.isDir full = .ok true → Discovery.IsSearchable t full)
    (fault : Fault) : ¬ Hinders t base full (.fault fault) := by
  intro hhinders
  cases hhinders with
  | tooLong _ hlong =>
    obtain ⟨found, hfound⟩ := t.exists_isDir h
    cases hfound.symm.trans (Tree.isDir_of_entry_tooLong hlong)
  | unsearchable _ hdir hlong => exact hlong (hsearchable hdir)

/-! ### One operand -/

theorem collectOne_of_hinders (hbase : t.isDir base = .ok true) (hfull : base.within (Path.ofText operand) = full)
    (h : Hinders t base full e) : collectOne t (searchFor base includes excludes) operand = .error e := by
  rw [searchFor_eq]
  cases h with
  | outside h =>
    rw [leadsInto_iff hbase, ← Option.isSome_iff_exists, Option.not_isSome_iff_eq_none] at h
    simp only [collectOne, hfull, h]
  | missing hinto hnone hlong =>
    obtain ⟨dir, hbelow⟩ := (leadsInto_iff hbase).1 hinto
    cases hentry : t.entry full with
    | ok entry => exact absurd hentry (hnone entry)
    | error fault =>
      have hdir := Tree.isDir_of_entry_error hentry fun heq => hlong (heq ▸ hentry)
      rw [collectOne_of_not_isDir hfull hbelow hdir, Tree.isFile_of_entry_error hentry, if_neg Bool.false_ne_true]
  | tooLong hinto hlong =>
    obtain ⟨dir, hbelow⟩ := (leadsInto_iff hbase).1 hinto
    exact collectOne_of_isDir_error hfull hbelow (Tree.isDir_of_entry_tooLong hlong)
  | unsearchable hinto hdir hlong =>
    obtain ⟨dir, hbelow⟩ := (leadsInto_iff hbase).1 hinto
    rw [← Discovery.allShort_iff_isSearchable hdir, Bool.not_eq_true] at hlong
    rw [collectOne_of_isDir hfull hbelow hdir,
      Discovery.discover_of_not_allShort hdir (Option.mapM_none _) (Tree.exists_reach_of_isDir hdir).1 hlong]
    rfl

theorem mem_singleton_iff_yields (hnames : t.PlainNames) (hfile : t.isFile full = true)
    (hplace : full.normalize t.cwd = base.normalize t.cwd ++ dir) :
    p ∈ [(⟨.here, dir⟩ : Path)] ↔ Yields t base includes excludes full p := by
  obtain ⟨content, hget⟩ := Tree.exists_file_of_isFile hfile
  rw [List.mem_singleton]
  constructor
  · rintro rfl
    exact .named (hnames.goesDown (by rw [← hplace, hget]; rfl)) hfile hplace
  · intro hyields
    cases hyields with
    | named hdown _ hsame =>
      exact hdown.eq_of_parts_eq (List.append_cancel_left (hsame.symm.trans hplace))
    | found _ q hwanted _ =>
      rw [(Tree.exists_reach_of_isDir hwanted.searched).2] at hget
      cases hget

theorem mem_map_iff_yields (hnames : t.PlainNames) (hdir : t.isDir full = .ok true)
    (hplace : full.normalize t.cwd = base.normalize t.cwd ++ dir)
    (hfiles : Discovery.discover t full (includes.map some) (excludes.map some) none = .ok files) :
    (p ∈ files.map fun file => Path.within ⟨.here, dir⟩ file) ↔ Yields t base includes excludes full p := by
  have hmem : ∀ q, q ∈ files ↔ Discovery.IsWanted t full includes excludes q := by
    intro q
    rw [Discovery.mem_discover_iff hfiles]
    simp
  rw [List.mem_map]
  constructor
  · rintro ⟨⟨anchor, parts⟩, hq, rfl⟩
    have hwanted := (hmem _).1 hq
    obtain rfl : anchor = .here := hwanted.relative
    obtain ⟨content, hget⟩ := hwanted.file
    rw [hplace, List.append_assoc] at hget
    refine .found (hnames.goesDown (by rw [hget]; rfl)) _ hwanted ?_
    rw [hplace, List.append_assoc]
    rfl
  · intro hyields
    cases hyields with
    | named _ hfile _ =>
      obtain ⟨content, hget⟩ := Tree.exists_file_of_isFile hfile
      rw [(Tree.exists_reach_of_isDir hdir).2] at hget
      cases hget
    | found hdown q hwanted hsame =>
      refine ⟨q, (hmem q).2 hwanted, ?_⟩
      rw [hplace, List.append_assoc] at hsame
      obtain ⟨anchor, parts⟩ := q
      obtain rfl : anchor = .here := hwanted.relative
      exact (hdown.eq_of_parts_eq (List.append_cancel_left hsame).symm).symm

theorem pairwise_lt_map_within (hfiles : Discovery.discover t full (includes.map some) (excludes.map some) none = .ok files) :
    (files.map fun file => Path.within ⟨.here, dir⟩ file).Pairwise fun p q => compare p.parts q.parts = .lt := by
  have hhere : ∀ q ∈ files, q.anchor = .here := fun q hq => ((Discovery.mem_discover_iff hfiles).1 hq).1.relative
  refine List.pairwise_map.2 ((Discovery.pairwise_lt_of_discover hfiles).imp_of_mem fun hp hq hlt => ?_)
  rwa [Path.parts_within (hhere _ hp), Path.parts_within (hhere _ hq), compare_append_left]

/-- Without a hindrance an operand gives exactly the files that it stands for, in order. -/
theorem exists_collectOne (hnames : t.PlainNames) (hbase : t.isDir base = .ok true)
    (hfull : base.within (Path.ofText operand) = full) (h : ∀ e, ¬ Hinders t base full e) :
    ∃ found, collectOne t (searchFor base includes excludes) operand = .ok found ∧
      (∀ p, p ∈ found ↔ Yields t base (globsOf includes) excludes full p) ∧
      found.Pairwise fun p q => compare p.parts q.parts = .lt := by
  have hinto : LeadsInto t base full := by
    by_contra houtside
    exact h _ (.outside houtside)
  obtain ⟨dir, hbelow⟩ := (leadsInto_iff hbase).1 hinto
  have hplace := normalize_of_below? hbelow
  rw [searchFor_eq]
  cases hentry : t.entry full with
  | error fault =>
    obtain ⟨e, he⟩ := exists_hinders_of_entry_error hinto hentry
    exact absurd he (h e)
  | ok entry =>
    cases entry with
    | file content =>
      have hfile : t.isFile full = true := by rw [Tree.isFile, hentry]
      have hdir : t.isDir full = .ok false := by rw [Tree.isDir, hentry]
      refine ⟨[⟨.here, dir⟩], ?_, fun p => mem_singleton_iff_yields hnames hfile hplace, List.pairwise_singleton _ _⟩
      rw [collectOne_of_not_isDir hfull hbelow hdir, if_pos hfile]
    | directory =>
      have hdir : t.isDir full = .ok true := by rw [Tree.isDir, hentry]
      have hsearchable : Discovery.IsSearchable t full := by
        by_contra hlong
        exact h _ (.unsearchable hinto hdir hlong)
      obtain ⟨files, hfiles⟩ : ∃ files, Discovery.discover t full ((globsOf includes).map some) (excludes.map some) none = .ok files :=
        ⟨_, Discovery.discover_map_some_eq_ok_iff.2 ⟨by simp, .inr ⟨hdir, hsearchable, rfl⟩⟩⟩
      refine ⟨_, ?_, fun p => mem_map_iff_yields hnames hdir hplace hfiles, pairwise_lt_map_within hfiles⟩
      rw [collectOne_of_isDir hfull hbelow hdir, hfiles]
      rfl

theorem yields_of_collectOne (hnames : t.PlainNames) (hbase : t.isDir base = .ok true)
    (h : collectOne t (searchFor base includes excludes) operand = .ok files) :
    (∀ p, p ∈ files ↔ Yields t base (globsOf includes) excludes (base.within (Path.ofText operand)) p) ∧
      files.Pairwise fun p q => compare p.parts q.parts = .lt := by
  obtain ⟨found, hfound, hspec⟩ := exists_collectOne hnames hbase rfl fun e he => by
    cases h.symm.trans (collectOne_of_hinders hbase rfl he)
  obtain rfl := Except.ok.inj (h.symm.trans hfound)
  exact hspec

/-! ### All operands -/

/-- The files are those that the operands stand for, each once and where it is first mentioned. -/
structure CollectsExactly (t : Tree) (base : Path) (includes excludes operands : List Text) (files : List Path) : Prop where
  goesDown : ∀ p ∈ files, p.GoesDown
  nodup : files.Nodup
  /-- No two of the paths name the same file. -/
  apart : files.Pairwise fun p q => (base.within p).normalize t.cwd ≠ (base.within q).normalize t.cwd
  mem_iff : ∀ p, p ∈ files ↔ ∃ operand ∈ operands, Yields t base includes excludes (base.within (Path.ofText operand)) p
  /-- By the first operand that stands for them, and in the files of one operand by their names. -/
  ordered : files.Pairwise (ComesFirst (fun operand => Yields t base includes excludes (base.within (Path.ofText operand)))
    (fun p q => compare p.parts q.parts = .lt) operands)

theorem Yields.goesDown (h : Yields t base includes excludes full p) : p.GoesDown := by
  cases h with
  | named hdown _ _ => exact hdown
  | found hdown _ _ _ => exact hdown

theorem collectsExactly_of_forall₂ {found : List (List Path)}
    (h : List.Forall₂ (fun operand list =>
      (∀ p, p ∈ list ↔ Yields t base includes excludes (base.within (Path.ofText operand)) p) ∧
        list.Pairwise fun p q => compare p.parts q.parts = .lt) operands found) :
    CollectsExactly t base includes excludes operands found.flatten.eraseDups := by
  have hmem : ∀ p, p ∈ found.flatten.eraseDups ↔
      ∃ operand ∈ operands, Yields t base includes excludes (base.within (Path.ofText operand)) p := by
    intro p
    rw [List.mem_eraseDups, List.mem_flatten]
    exact (exists_mem_iff_of_forall₂ h fun operand list hlist => (hlist.1 p).symm).symm
  have hdown : ∀ p ∈ found.flatten.eraseDups, p.GoesDown := by
    intro p hp
    obtain ⟨operand, -, hyields⟩ := (hmem p).1 hp
    exact hyields.goesDown
  refine ⟨hdown, nodup_eraseDups _, ?_, hmem, ?_⟩
  · refine (nodup_eraseDups _).imp_of_mem fun hp hq hne hsame => ?_
    exact hne ((hdown _ hp).eq_of_normalize_eq (hdown _ hq) hsame)
  · have hfirst := pairwise_comesFirst h fun _ => true
    rwa [List.filter_true] at hfirst

theorem collect_eq (t : Tree) (search : Search) (operands : List Text) :
    collect t search operands = ((operandsOf operands).mapM (collectOne t search)).map fun found => found.flatten.eraseDups := by
  rw [collect]
  cases (operandsOf operands).mapM (collectOne t search) <;> rfl

theorem collect_eq_error {search : Search} {earlier later : List Text} (hoperands : operandsOf operands = earlier ++ operand :: later)
    (hearlier : ∀ other ∈ earlier, ∃ found, collectOne t search other = .ok found) (h : collectOne t search operand = .error e) :
    collect t search operands = .error e := by
  have hnone : earlier.findSome? (fun other => failure? (collectOne t search other)) = none := by
    refine List.findSome?_eq_none_iff.2 fun other hother => ?_
    obtain ⟨found, hfound⟩ := hearlier other hother
    rw [hfound, failure?_ok]
  refine failure?_eq_some_iff.1 ?_
  rw [collect_eq, failure?_map, failure?_mapM, hoperands, List.findSome?_append, hnone, List.findSome?_cons, h]
  rfl

/-- Without operands the base directory is taken as if it had been named. The first operand with a hindrance ends the collection with it, and if there is none, the files that the operands stand for are collected. Within the limits of the system the only hindrances are operands that lead out of the base directory or to nothing. -/
theorem collect_exact (hnames : t.PlainNames) (hbase : t.isDir base = .ok true) (includes excludes operands : List Text) :
    collect t (searchFor base includes excludes) [] = collect t (searchFor base includes excludes) [Path.stay] ∧
      (∀ earlier operand later e, operandsOf operands = earlier ++ operand :: later →
        (∀ other ∈ earlier, ∀ e, ¬ Hinders t base (base.within (Path.ofText other)) e) →
        Hinders t base (base.within (Path.ofText operand)) e → collect t (searchFor base includes excludes) operands = .error e) ∧
      ((∀ operand ∈ operandsOf operands, ∀ e, ¬ Hinders t base (base.within (Path.ofText operand)) e) →
        ∃ files, collect t (searchFor base includes excludes) operands = .ok files ∧
          CollectsExactly t base (globsOf includes) excludes (operandsOf operands) files) ∧
      ∀ full, full.WithinLimits → (t.isDir full = .ok true → Discovery.IsSearchable t full) →
        ∀ fault, ¬ Hinders t base full (.fault fault) := by
  have hfine : ∀ operand, (∀ e, ¬ Hinders t base (base.within (Path.ofText operand)) e) →
      ∃ found, collectOne t (searchFor base includes excludes) operand = .ok found := by
    intro operand h
    obtain ⟨found, hfound, -⟩ := exists_collectOne hnames hbase rfl h
    exact ⟨found, hfound⟩
  refine ⟨rfl, fun earlier operand later e hoperands hearlier h => ?_, fun h => ?_, fun full => not_hinders_fault⟩
  · exact collect_eq_error hoperands (fun other hother => hfine other (hearlier other hother)) (collectOne_of_hinders hbase rfl h)
  · obtain ⟨found, hfound⟩ := exists_mapM fun operand hoperand => hfine operand (h operand hoperand)
    refine ⟨_, map_eq_ok_iff.2 ⟨found, hfound, rfl⟩, collectsExactly_of_forall₂ ?_⟩
    exact (forall₂_of_mapM hfound).imp fun operand list hlist => yields_of_collectOne hnames hbase hlist

def notebookTree : Tree :=
  ⟨["n".toList], .folder "n".toList
    (.folder "d".toList (.file "a.md".toList [] (.folder "e".toList (.file "b.md".toList [] (.file "c".toList [] .empty)) .empty))
      (.file "f".toList [] .empty)) .empty⟩

def notebookOperands : List Text := ["d/e/c".toList, "d/e/../e".toList, "/n/d".toList, "d/../f".toList, "d/a.md".toList]

theorem collect_exact_in_notebookTree :
    notebookTree.PlainNames ∧ notebookTree.isDir Path.here = .ok true ∧
      ∃ files, collect notebookTree (searchFor Path.here ["*.md".toList] ["a*".toList]) notebookOperands = .ok files ∧
        CollectsExactly notebookTree Path.here ["*.md".toList] ["a*".toList] notebookOperands files ∧
        files = [Path.ofText "d/e/c".toList, Path.ofText "d/e/b.md".toList, Path.ofText "f".toList, Path.ofText "d/a.md".toList] := by
  have hnames : notebookTree.PlainNames := by decide +kernel
  have hbase : notebookTree.isDir Path.here = .ok true := by decide +kernel
  have hfine : ∀ operand ∈ notebookOperands, ∀ e, ¬ Hinders notebookTree Path.here (Path.here.within (Path.ofText operand)) e := by
    intro operand hoperand e he
    have hfound : ∀ operand ∈ notebookOperands,
        (collectOne notebookTree (searchFor Path.here [] []) operand).isOk = true := by decide +kernel
    have hoperand := hfound operand hoperand
    rw [collectOne_of_hinders hbase rfl he] at hoperand
    cases hoperand
  have hcollected : (collect notebookTree (searchFor Path.here ["*.md".toList] ["a*".toList]) notebookOperands).toOption =
      some [Path.ofText "d/e/c".toList, Path.ofText "d/e/b.md".toList, Path.ofText "f".toList, Path.ofText "d/a.md".toList] := by
    decide +kernel
  obtain ⟨-, -, hcollects, -⟩ := collect_exact hnames hbase ["*.md".toList] ["a*".toList] notebookOperands
  obtain ⟨files, hfiles, hexactly⟩ := hcollects hfine
  rw [hfiles] at hcollected
  exact ⟨hnames, hbase, files, hfiles, hexactly, Option.some.inj hcollected⟩

def windingOperand : Text := (List.replicate 780 "d/../".toList).flatten ++ "d".toList

def longName : Text := List.replicate 200 'n'

def windingTree : Tree := ⟨[], .folder "d".toList (.file longName (Charset.Utf8.encode "x\n".toList) .empty) .empty⟩

/-- The directory is there, and all names are short, but the way to the file in it is too long when it starts with the operand. -/
theorem exists_file_out_of_reach :
    windingTree.PlainNames ∧ windingTree.isDir Path.here = .ok true ∧ (Path.ofText windingOperand).WithinLimits ∧
      LeadsInto windingTree Path.here (Path.here.within (Path.ofText windingOperand)) ∧
      windingTree.isDir (Path.here.within (Path.ofText windingOperand)) = .ok true ∧
      windingTree.isFile ⟨.here, ["d".toList, longName]⟩ = true ∧
      collect windingTree (searchFor Path.here [] []) [windingOperand] = .error (.fault (.os .nameTooLong)) := by
  have hbase : windingTree.isDir Path.here = .ok true := by decide +kernel
  have hinto : LeadsInto windingTree Path.here (Path.here.within (Path.ofText windingOperand)) :=
    ⟨["d".toList], by decide +kernel, by decide +kernel⟩
  have hdir : windingTree.isDir (Path.here.within (Path.ofText windingOperand)) = .ok true := by decide +kernel
  have hlong : ¬ Discovery.IsSearchable windingTree (Path.here.within (Path.ofText windingOperand)) := fun hsearchable =>
    absurd (hsearchable [longName] (by decide +kernel)) (by decide +kernel)
  have honly : operandsOf [windingOperand] = [] ++ windingOperand :: [] := rfl
  refine ⟨by decide +kernel, hbase, by decide +kernel, hinto, hdir, by decide +kernel, ?_⟩
  exact collect_eq_error honly (by simp) (collectOne_of_hinders hbase rfl (.unsearchable hinto hdir hlong))

end Command

end Quotation
