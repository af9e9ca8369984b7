import Quotation.Proofs.Tree.Growth

/-!
# Where walks come by

Walking a path looks at one place after the other. A path that keeps clear of a place, on its way and at its end, cannot tell trees apart that differ at this place and below only (`entry_of_sameOutside`). No path can tell trees apart by its walk that differ in the content of files only (`reach_of_sameKinds`).
-/

namespace Quotation.Tree

/-- The places that a walk comes by, as far as it gets. -/
def trail (t : Tree) : Place → List Text → List Place
  | place, [] => [place]
  | place, part :: parts =>
    place :: match t.get? place with
      | some .directory =>
        if part = Path.up then trail t place.dropLast parts
        else if part = Path.stay then trail t place parts
        else if nameLimit < Charset.Utf8.size part then []
        else trail t (place ++ [part]) parts
      | _ => []

/-- The path does not pass through `place` or anything below it, nor does it end there. -/
def KeepsClear (t : Tree) (place : Place) (p : Path) : Prop := ∀ stop ∈ t.trail (t.startOf p) p.parts, ¬ place <+: stop

instance (t : Tree) (place : Place) (p : Path) : Decidable (t.KeepsClear place p) :=
  inferInstanceAs (Decidable (∀ stop ∈ t.trail (t.startOf p) p.parts, ¬ place <+: stop))

/-- The trees are the same but for what is at `place` and below. -/
structure SameOutside (place : Place) (t u : Tree) : Prop where
  cwd : u.cwd = t.cwd
  get? : ∀ other, ¬ place <+: other → u.get? other = t.get? other

variable {t u : Tree} {place : Place} {p : Path}

theorem entryAt_of_get?_eq (h : u.get? place = t.get? place) : u.entryAt (.ok place) = t.entryAt (.ok place) := by
  simp only [entryAt, bind, Except.bind, h]

theorem walk_of_sameOutside (h : SameOutside place t u) {start : Place} {parts : List Text}
    (hclear : ∀ stop ∈ t.trail start parts, ¬ place <+: stop) :
    u.walk start parts = t.walk start parts ∧ ∀ reached, t.walk start parts = .ok reached → ¬ place <+: reached := by
  induction parts generalizing start with
  | nil =>
    refine ⟨rfl, fun reached hreached => ?_⟩
    obtain rfl := Except.ok.inj hreached
    exact hclear start (by simp [trail])
  | cons part parts ih =>
    rw [trail] at hclear
    obtain ⟨hstart, hrest⟩ := List.forall_mem_cons.1 hclear
    rw [walk, walk, h.get? start hstart]
    cases hentry : t.get? start with
    | none => exact ⟨rfl, by simp⟩
    | some entry =>
      cases entry with
      | file content => exact ⟨rfl, by simp⟩
      | directory =>
        rw [hentry] at hrest
        dsimp only at hrest ⊢
        by_cases hup : part = Path.up
        · rw [if_pos hup, if_pos hup]
          rw [if_pos hup] at hrest
          exact ih hrest
        · rw [if_neg hup, if_neg hup]
          rw [if_neg hup] at hrest
          by_cases hstay : part = Path.stay
          · rw [if_pos hstay, if_pos hstay]
            rw [if_pos hstay] at hrest
            exact ih hrest
          · rw [if_neg hstay, if_neg hstay]
            rw [if_neg hstay] at hrest
            by_cases hlong : nameLimit < Charset.Utf8.size part
            · rw [if_pos hlong, if_pos hlong]
              exact ⟨rfl, by simp⟩
            · rw [if_neg hlong, if_neg hlong]
              rw [if_neg hlong] at hrest
              exact ih hrest

/-- What stands where a path leads is the same if the path keeps clear of where the trees differ. -/
theorem entry_of_sameOutside (h : SameOutside place t u) (hclear : t.KeepsClear place p) : u.entry p = t.entry p := by
  have hstart : u.startOf p = t.startOf p := by rw [startOf, startOf, h.cwd]
  obtain ⟨hwalk, hend⟩ := walk_of_sameOutside h hclear
  have hreach : u.reach p = t.reach p := by
    rw [reach_eq, reach_eq, hstart, hwalk]
  rw [entry, entry, hreach]
  cases hplace : t.reach p with
  | error fault => rfl
  | ok reached =>
    obtain ⟨-, -, hwalked⟩ := reach_eq_ok_iff.1 hplace
    exact entryAt_of_get?_eq (h.get? reached (hend reached hwalked))

/-! ### The same files and directories -/

/-- The same files and directories are there, whatever the files hold. -/
structure SameKinds (t u : Tree) : Prop where
  cwd : u.cwd = t.cwd
  get? : ∀ place, u.get? place = t.get? place ∨ ∃ a b, t.get? place = some (.file a) ∧ u.get? place = some (.file b)

theorem walk_of_sameKinds (h : SameKinds t u) (start : Place) (parts : List Text) : u.walk start parts = t.walk start parts := by
  induction parts generalizing start with
  | nil => rfl
  | cons part parts ih =>
    rw [walk, walk]
    obtain hsame | ⟨a, b, ha, hb⟩ := h.get? start
    · simp only [hsame, ih]
    · rw [ha, hb]

theorem reach_of_sameKinds (h : SameKinds t u) (p : Path) : u.reach p = t.reach p := by
  have hstart : u.startOf p = t.startOf p := by rw [startOf, startOf, h.cwd]
  rw [reach_eq, reach_eq, hstart, walk_of_sameKinds h]

theorem entry_of_sameKinds (h : SameKinds t u) (hplace : ∀ place, t.reach p = .ok place → u.get? place = t.get? place) :
    u.entry p = t.entry p := by
  rw [entry, entry, reach_of_sameKinds h]
  cases hreach : t.reach p with
  | error fault => rfl
  | ok reached =>
    exact entryAt_of_get?_eq (hplace reached hreach)

theorem entry_eq_or_of_sameKinds (h : SameKinds t u) (p : Path) :
    u.entry p = t.entry p ∨ ∃ a b, t.entry p = .ok (.file a) ∧ u.entry p = .ok (.file b) := by
  cases hreach : t.reach p with
  | error fault => exact .inl (entry_of_sameKinds h fun place hplace => absurd (hreach.symm.trans hplace) (by simp))
  | ok reached =>
    obtain hsame | ⟨a, b, ha, hb⟩ := h.get? reached
    · refine .inl (entry_of_sameKinds h fun place hplace => ?_)
      obtain rfl := Except.ok.inj (hreach.symm.trans hplace)
      exact hsame
    · exact .inr ⟨a, b, entryAt_eq_ok_iff.2 ⟨reached, hreach, ha⟩,
        entryAt_eq_ok_iff.2 ⟨reached, (reach_of_sameKinds h p).trans hreach, hb⟩⟩

theorem isFile_of_sameKinds (h : SameKinds t u) (p : Path) : u.isFile p = t.isFile p := by
  obtain hsame | ⟨a, b, ha, hb⟩ := entry_eq_or_of_sameKinds h p
  · rw [isFile, isFile, hsame]
  · rw [isFile, isFile, ha, hb]

theorem isDir_of_sameKinds (h : SameKinds t u) (p : Path) : u.isDir p = t.isDir p := by
  obtain hsame | ⟨a, b, ha, hb⟩ := entry_eq_or_of_sameKinds h p
  · rw [isDir, isDir, hsame]
  · rw [isDir, isDir, ha, hb]

/-! ### What is told from an entry -/

theorem isFile_of_entry_eq (h : u.entry p = t.entry p) : u.isFile p = t.isFile p := by rw [isFile, isFile, h]

theorem isDir_of_entry_eq (h : u.entry p = t.entry p) : u.isDir p = t.isDir p := by rw [isDir, isDir, h]

theorem read_of_entry_eq (h : u.entry p = t.entry p) : u.read p = t.read p := by
  show (u.entry p >>= _) = (t.entry p >>= _)
  rw [h]

theorem citedLines_of_entry_eq {encoding : Option Text} (h : u.entry p = t.entry p) :
    u.citedLines encoding p = t.citedLines encoding p := by
  rw [citedLines, citedLines, readLines, readLines, readText, readText, read_of_entry_eq h]

theorem excerpt_of_entry_eq {encoding : Option Text} (h : u.entry p = t.entry p) (c : Citation) :
    u.excerpt encoding c p = t.excerpt encoding c p := by
  rw [excerpt, excerpt, citedLines_of_entry_eq h]

end Quotation.Tree
