import Quotation.Proofs.Tree.Faults

/-!
# What writing keeps

Making directories only adds to a tree (`Grows`), and writing a file changes one place that holds no directory. So a path that leads somewhere still leads there afterwards (`reach_of_keepsDirs`), and everything but the one place stays as it was (`get?_of_writeFile`).
-/

namespace Quotation

def Path.upTo (p : Path) (count : Nat) : Path := ⟨p.anchor, p.parts.take count⟩

namespace Tree

open Outcome

/-- The directories of a tree are there in another one, which has the same working directory. -/
structure KeepsDirs (before after : Tree) : Prop where
  cwd : after.cwd = before.cwd
  get? : ∀ place, before.get? place = some .directory → after.get? place = some .directory

/-- Everything in a tree is there in another one, which has the same working directory. -/
structure Grows (before after : Tree) : Prop where
  cwd : after.cwd = before.cwd
  get? : ∀ place entry, before.get? place = some entry → after.get? place = some entry

def HasCwd (t : Tree) : Prop := t.get? t.cwd = some .directory

variable {t u v : Tree} {p : Path} {place : Place} {content : Bytes}

theorem KeepsDirs.refl (t : Tree) : KeepsDirs t t := ⟨rfl, fun _ h => h⟩

theorem KeepsDirs.trans (h : KeepsDirs t u) (h' : KeepsDirs u v) : KeepsDirs t v :=
  ⟨h'.cwd.trans h.cwd, fun place hplace => h'.get? place (h.get? place hplace)⟩

theorem KeepsDirs.hasCwd (h : KeepsDirs t u) (hcwd : t.HasCwd) : u.HasCwd := by
  rw [HasCwd, h.cwd]
  exact h.get? t.cwd hcwd

theorem Grows.refl (t : Tree) : Grows t t := ⟨rfl, fun _ _ h => h⟩

theorem Grows.trans (h : Grows t u) (h' : Grows u v) : Grows t v :=
  ⟨h'.cwd.trans h.cwd, fun place entry hplace => h'.get? place entry (h.get? place entry hplace)⟩

theorem Grows.keepsDirs (h : Grows t u) : KeepsDirs t u := ⟨h.cwd, fun place => h.get? place .directory⟩

/-! ### Paths -/

theorem walk_of_keepsDirs (h : KeepsDirs t u) {start reached : Place} {parts : List Text}
    (hwalk : t.walk start parts = .ok reached) : u.walk start parts = .ok reached := by
  induction parts generalizing start with
  | nil => exact hwalk
  | cons part parts ih =>
    rw [walk] at hwalk ⊢
    cases hstart : t.get? start with
    | none => simp [hstart] at hwalk
    | some entry =>
      cases entry with
      | file content => simp [hstart] at hwalk
      | directory =>
        rw [hstart] at hwalk
        rw [h.get? start hstart]
        dsimp only at hwalk ⊢
        split at hwalk
        · next hup => rw [if_pos hup, ih hwalk]
        · next hup =>
          rw [if_neg hup]
          split at hwalk
          · next hstay => rw [if_pos hstay, ih hwalk]
          · next hstay =>
            rw [if_neg hstay]
            split at hwalk
            · cases hwalk
            · next hshort => rw [if_neg hshort, ih hwalk]

theorem walk_append (start : Place) (first second : List Text) :
    t.walk start (first ++ second) = t.walk start first >>= fun place => t.walk place second := by
  induction first generalizing start with
  | nil => rfl
  | cons part parts ih =>
    rw [List.cons_append, walk, walk]
    cases t.get? start with
    | none => rfl
    | some entry =>
      cases entry with
      | file content => rfl
      | directory =>
        dsimp only
        split
        · exact ih _
        · split
          · exact ih _
          · split
            · rfl
            · exact ih _

theorem walk_singleton (dir : Place) (name : Text) :
    t.walk dir [name] =
      match t.get? dir with
      | none => .error .notFound
      | some (.file _) => .error .notDirectory
      | some .directory =>
        if name = Path.up then .ok dir.dropLast
        else if name = Path.stay then .ok dir
        else if nameLimit < Charset.Utf8.size name then .error .nameTooLong
        else .ok (dir ++ [name]) := by
  rw [walk]
  rfl

theorem get?_dropLast_of_walk {start reached : Place} {parts : List Text} (hstart : t.get? start.dropLast = some .directory)
    (h : t.walk start parts = .ok reached) : t.get? reached.dropLast = some .directory := by
  induction parts generalizing start with
  | nil =>
    obtain rfl := Except.ok.inj h
    exact hstart
  | cons part parts ih =>
    rw [walk] at h
    cases hentry : t.get? start with
    | none => simp [hentry] at h
    | some entry =>
      cases entry with
      | file content => simp [hentry] at h
      | directory =>
        rw [hentry] at h
        dsimp only at h
        split at h
        · have habove : t.get? start.dropLast.dropLast = some .directory := t.get?_dropLast _ (by simp [hstart])
          exact ih habove h
        · split at h
          · exact ih hstart h
          · split at h
            · cases h
            · have habove : t.get? (start ++ [part]).dropLast = some .directory := by rwa [List.dropLast_concat]
              exact ih habove h

def startOf (t : Tree) (p : Path) : Place :=
  match p.anchor with
  | .here => t.cwd
  | _ => []

theorem reach_eq (t : Tree) (p : Path) :
    t.reach p = if p.hasNull then .error .nullInPath
      else if pathLimit < Charset.Utf8.size p.toText then .error (.os .nameTooLong)
      else (t.walk (t.startOf p) p.parts).mapError .os := rfl

theorem reach_eq_ok_iff : t.reach p = .ok place ↔
    p.hasNull = false ∧ Charset.Utf8.size p.toText ≤ pathLimit ∧ t.walk (t.startOf p) p.parts = .ok place := by
  rw [reach_eq]
  by_cases hnull : p.hasNull = true
  · simp [hnull]
  · by_cases hlong : pathLimit < Charset.Utf8.size p.toText
    · simp [hnull, hlong, Nat.not_le_of_lt hlong]
    · rw [if_neg hnull, if_neg hlong, mapError_eq_ok_iff]
      simp [hnull, Nat.le_of_not_lt hlong]

theorem reach_of_keepsDirs (h : KeepsDirs t u) (hreach : t.reach p = .ok place) : u.reach p = .ok place := by
  obtain ⟨hnull, hshort, hwalk⟩ := reach_eq_ok_iff.1 hreach
  have hstart : u.startOf p = t.startOf p := by rw [startOf, startOf, h.cwd]
  refine reach_eq_ok_iff.2 ⟨hnull, hshort, ?_⟩
  rw [hstart]
  exact walk_of_keepsDirs h hwalk

/-- There is a directory above the place that a path starts from. -/
def HasStart (t : Tree) (p : Path) : Prop := t.get? (t.startOf p).dropLast = some .directory

theorem HasCwd.hasStart (h : t.HasCwd) (p : Path) : t.HasStart p := by
  rw [HasStart, startOf]
  split
  · exact t.get?_dropLast t.cwd (by rw [h]; rfl)
  · exact t.get?_root

theorem KeepsDirs.hasStart (h : KeepsDirs t u) (hstart : t.HasStart p) : u.HasStart p := by
  have hsame : u.startOf p = t.startOf p := by rw [startOf, startOf, h.cwd]
  rw [HasStart, hsame]
  exact h.get? _ hstart

theorem get?_dropLast_of_reach (hstart : t.HasStart p) (h : t.reach p = .ok place) :
    t.get? place.dropLast = some .directory := by
  obtain ⟨-, -, hwalk⟩ := reach_eq_ok_iff.1 h
  exact get?_dropLast_of_walk hstart hwalk

theorem exists_walk_take {entry : Entry} (h : t.entry p = .ok entry) (count : Nat) :
    ∃ place, t.walk (t.startOf p) (p.parts.take count) = .ok place ∧ (t.get? place).isSome := by
  obtain ⟨reached, hreach, hget⟩ := entryAt_eq_ok_iff.1 h
  obtain ⟨-, -, hwalk⟩ := reach_eq_ok_iff.1 hreach
  rw [← List.take_append_drop count p.parts, walk_append, bind_eq_ok_iff] at hwalk
  obtain ⟨place, hplace, hrest⟩ := hwalk
  refine ⟨place, hplace, ?_⟩
  cases hdrop : p.parts.drop count with
  | nil =>
    rw [hdrop] at hrest
    obtain rfl := Except.ok.inj hrest
    simp [hget]
  | cons part parts =>
    rw [hdrop, walk] at hrest
    cases hentry : t.get? place with
    | none => simp [hentry] at hrest
    | some entry => rfl

/-- The first names of a path lead to the same place where all directories are kept. -/
theorem eq_of_reach_upTo {count : Nat} {other : Place} (h : KeepsDirs t u)
    (hwalk : t.walk (t.startOf p) (p.parts.take count) = .ok place) (hreach : u.reach (p.upTo count) = .ok other) :
    other = place := by
  have hstart : u.startOf (p.upTo count) = t.startOf p := by rw [startOf, startOf, h.cwd, Path.upTo]
  obtain ⟨-, -, hother⟩ := reach_eq_ok_iff.1 hreach
  rw [hstart, Path.upTo, walk_of_keepsDirs h hwalk] at hother
  exact (Except.ok.inj hother).symm

theorem hasStart_of_entry {entry : Entry} (h : t.entry p = .ok entry) : t.HasStart p := by
  obtain ⟨start, hwalk, hsome⟩ := exists_walk_take h 0
  obtain rfl : t.startOf p = start := Except.ok.inj hwalk
  exact t.get?_dropLast _ hsome

/-- A path leads where its names tell. -/
theorem normalize_of_reach (h : t.reach p = .ok place) : p.normalize t.cwd = place := by
  obtain ⟨-, -, hwalk⟩ := reach_eq_ok_iff.1 h
  exact (t.walk_eq_foldl _ _ _ hwalk).symm

theorem exists_reach_of_isDir (h : t.isDir p = .ok true) :
    t.reach p = .ok (p.normalize t.cwd) ∧ t.get? (p.normalize t.cwd) = some .directory := by
  obtain ⟨place, hreach, hget⟩ := entryAt_eq_ok_iff.1 (entry_of_isDir h)
  rw [normalize_of_reach hreach]
  exact ⟨hreach, hget⟩

/-- The place is below the directory that the path names. -/
def IsInside (t : Tree) (dir : Path) (place : Place) : Prop := dir.normalize t.cwd <+: place ∧ place ≠ dir.normalize t.cwd

theorem resolve_eq_ok_iff : t.resolve p = .ok place ↔ p.hasNull = false ∧ p.normalize t.cwd = place := by
  rw [resolve]
  split
  · next hnull => simp [hnull]
  · next hnull => simp [hnull]

theorem normalize_of_resolve (h : t.resolve p = .ok place) : p.normalize t.cwd = place := (resolve_eq_ok_iff.1 h).2

theorem resolve_of_reach (h : t.reach p = .ok place) : t.resolve p = .ok place :=
  resolve_eq_ok_iff.2 ⟨(reach_eq_ok_iff.1 h).1, normalize_of_reach h⟩

theorem mapM_resolve_eq_ok_iff {q : Option Path} {skip : Option Place} :
    q.mapM t.resolve = .ok skip ↔ (∀ p ∈ q, p.hasNull = false) ∧ skip = q.map (Path.normalize t.cwd) := by
  cases q with
  | none =>
    rw [Option.mapM_none]
    refine ⟨fun h => ⟨by simp, (Except.ok.inj h).symm⟩, fun h => ?_⟩
    rw [h.2]
    rfl
  | some p =>
    rw [Option.mapM_some]
    constructor
    · intro h
      obtain ⟨place, hplace, rfl⟩ := map_eq_ok_iff.1 h
      obtain ⟨hnull, rfl⟩ := resolve_eq_ok_iff.1 hplace
      exact ⟨by simpa using hnull, rfl⟩
    · rintro ⟨hnull, rfl⟩
      exact map_eq_ok_iff.2 ⟨_, resolve_eq_ok_iff.2 ⟨hnull p rfl, rfl⟩, rfl⟩

/-! ### Directories -/

theorem get?_of_makeDir (hstart : t.HasStart p) (h : t.makeDir p = .ok u) :
    ∃ place, t.reach p = .ok place ∧ t.get? place = none ∧ KeepsDirs t u ∧
      ∀ other, u.get? other = if other = place then some .directory else t.get? other := by
  rw [makeDir, bind_eq_ok_iff] at h
  obtain ⟨place, hplace, h⟩ := h
  cases hentry : t.get? place with
  | some entry => simp [hentry, throw, throwThe, MonadExceptOf.throw] at h
  | none =>
    rw [hentry] at h
    obtain rfl : t.insert place .directory = u := Except.ok.inj h
    have hne : place ≠ [] := by
      rintro rfl
      cases hentry
    have hget : ∀ other, (t.insert place .directory).get? other = if other = place then some .directory else t.get? other :=
      fun other => t.get?_insert place other .directory hne (get?_dropLast_of_reach hstart hplace) fun _ => rfl
    refine ⟨place, hplace, hentry, ⟨rfl, fun other hother => ?_⟩, hget⟩
    rw [hget, hother, ite_self]

theorem grows_of_makeDir (hstart : t.HasStart p) (h : t.makeDir p = .ok u) : Grows t u := by
  obtain ⟨place, -, hentry, hkeeps, hget⟩ := get?_of_makeDir hstart h
  refine ⟨hkeeps.cwd, fun other entry hother => ?_⟩
  rw [hget, if_neg]
  · exact hother
  · rintro rfl
    cases hentry.symm.trans hother

theorem grows_of_makeAncestor (hstart : t.HasStart p) (count : Nat) : Grows t (t.makeAncestor p count).1 := by
  induction count with
  | zero => exact Grows.refl t
  | succ count ih =>
    rw [makeAncestor]
    split
    · next made hmade => exact grows_of_makeDir (p := p.upTo (count + 1)) hstart hmade
    · split
      · next above fault habove =>
        rw [habove] at ih
        exact ih
      · next above habove =>
        rw [habove] at ih
        split
        · next made hmade => exact ih.trans (grows_of_makeDir (p := p.upTo (count + 1)) (ih.keepsDirs.hasStart hstart) hmade)
        · exact ih
        · exact ih
    · exact Grows.refl t

/-! ### Files -/

/-- Writing a file changes what stands at its place and nothing else. -/
theorem get?_of_writeFile (hstart : t.HasStart p) (h : t.writeFile p content = .ok u) :
    ∃ place, t.reach p = .ok place ∧ KeepsDirs t u ∧
      ∀ other, u.get? other = if other = place then some (.file content) else t.get? other := by
  rw [writeFile, bind_eq_ok_iff] at h
  obtain ⟨place, hplace, h⟩ := h
  split at h
  · cases h
  · next hfree =>
    obtain rfl : t.insert place (.file content) = u := Except.ok.inj h
    have hne : place ≠ [] := by
      rintro rfl
      exact hfree rfl
    have hget : ∀ other, (t.insert place (.file content)).get? other =
        if other = place then some (.file content) else t.get? other := fun other =>
      t.get?_insert place other _ hne (get?_dropLast_of_reach hstart hplace) fun hdir => absurd hdir hfree
    refine ⟨place, hplace, ⟨rfl, fun other hother => ?_⟩, hget⟩
    rw [hget, if_neg]
    · exact hother
    · rintro rfl
      exact hfree hother

theorem keepsDirs_of_belowNewDirs {finish : Tree → Except Fault Tree} (hstart : t.HasStart p)
    (h : ∀ above after, Grows t above → finish above = .ok after → KeepsDirs above after) :
    KeepsDirs t (t.belowNewDirs p finish).1 := by
  have hgrows : Grows t (t.makeDirs p.parent).1 := grows_of_makeAncestor (p := p.parent) hstart _
  rw [belowNewDirs]
  split
  · next above fault habove =>
    rw [habove] at hgrows
    exact hgrows.keepsDirs
  · next above habove =>
    rw [habove] at hgrows
    split
    · next after hafter => exact hgrows.keepsDirs.trans (h above after hgrows hafter)
    · exact hgrows.keepsDirs

theorem exists_of_belowNewDirs {finish : Tree → Except Fault Tree} (hstart : t.HasStart p)
    (h : t.belowNewDirs p finish = (u, .ok ())) : ∃ above, Grows t above ∧ finish above = .ok u := by
  have hgrows : Grows t (t.makeDirs p.parent).1 := grows_of_makeAncestor (p := p.parent) hstart _
  rw [belowNewDirs] at h
  split at h
  · cases h
  · next above habove =>
    rw [habove] at hgrows
    split at h
    · next after hafter =>
      obtain rfl : after = u := congrArg Prod.fst h
      exact ⟨above, hgrows, hafter⟩
    · cases h

theorem writeFile_of_replaceFile (h : t.replaceFile p content = .ok u) : t.writeFile p content = .ok u := by
  rw [replaceFile, bind_eq_ok_iff] at h
  obtain ⟨place, -, h⟩ := h
  split at h
  · cases h
  · exact h

theorem exists_of_writeText {text : Text} {encoding : Option Text} (h : t.writeText p text encoding = .ok u) :
    ∃ charset content, Charset.NamedBy encoding charset ∧ charset.encode text = .ok content ∧ t.writeFile p content = .ok u := by
  simp only [writeText, bind_eq_ok_iff] at h
  obtain ⟨-, -, name, hname, charset, hcharset, h⟩ := h
  cases hencode : charset.encode text with
  | error e => simp [hencode, throw, throwThe, MonadExceptOf.throw] at h
  | ok content =>
    rw [hencode] at h
    exact ⟨charset, content, ⟨name, hname, hcharset⟩, hencode, writeFile_of_replaceFile h⟩

theorem exists_of_copyInto {source : Except Fault Place} (h : t.copyInto source p = .ok u) :
    ∃ origin content, source = .ok origin ∧ t.get? origin = some (.file content) ∧ t.reach p ≠ .ok origin ∧
      t.writeFile p content = .ok u := by
  rw [copyInto_eq] at h
  split at h
  · cases h
  · split at h
    · cases h
    · next hsame =>
      obtain ⟨content, hread, hwrite⟩ := bind_eq_ok_iff.1 h
      obtain ⟨origin, rfl, hget⟩ := readAt_eq_ok_iff.1 hread
      refine ⟨origin, content, rfl, hget, ?_, hwrite⟩
      intro hreach
      exact hsame (by simp [isSame, hreach, hget])

end Tree

end Quotation
