import Quotation.Proofs.Tree.Clearance
import Quotation.Proofs.Tree.Trail

/-!
# Writing again

Writing that is done again, in a tree that shows what the first time has left, ends in the same way and changes nothing that shows (`belowNewDirs_again`). Where the first time has put a file, there is the directory for it now and the same content to be replaced. Where making the directories failed, none has been made before (`fst_makeAncestor_of_error`), so it fails again; this takes an output directory that has all it needs above it. Where a later step failed, the directories are there and the step fails again, since an operation cannot tell trees apart that show the same (`SameView`).
-/

namespace Quotation.Tree

open Outcome

variable {t u w : Tree} {p : Path} {place : Place} {content : Bytes} {count : Nat} {encoding : Option Text}

/-! ### Trees that show the same -/

theorem SameView.sameKinds (h : SameView t u) : SameKinds t u := ⟨h.cwd, fun place => .inl (h.get? place)⟩

theorem SameView.keepsDirs (h : SameView t u) : KeepsDirs t u := ⟨h.cwd, fun place hplace => (h.get? place).trans hplace⟩

theorem SameView.symm (h : SameView t u) : SameView u t := ⟨h.cwd.symm, fun place => (h.get? place).symm⟩

theorem SameView.trans (h : SameView t u) (h' : SameView u w) : SameView t w :=
  ⟨h'.cwd.trans h.cwd, fun place => (h'.get? place).trans (h.get? place)⟩

/-- Two operations fail in the same way or leave trees that show the same. -/
inductive SameResult : Except Fault Tree → Except Fault Tree → Prop where
  | ok {a b : Tree} (h : SameView a b) : SameResult (.ok a) (.ok b)
  | error (fault : Fault) : SameResult (.error fault) (.error fault)

/-- Two operations end in the same way and leave trees that show the same. -/
structure SameEnd (x y : Tree × Except Fault Unit) : Prop where
  view : SameView x.1 y.1
  outcome : y.2 = x.2

theorem sameResult_makeDir (h : SameView t u) (hstart : t.HasStart p) : SameResult (t.makeDir p) (u.makeDir p) := by
  rw [makeDir, makeDir, reach_of_sameKinds h.sameKinds]
  cases hreach : t.reach p with
  | error fault => exact .error fault
  | ok place =>
    simp only [bind, Except.bind, h.get? place]
    cases hget : t.get? place with
    | some entry => exact .error _
    | none =>
      have hne : place ≠ [] := by
        rintro rfl
        cases hget
      exact .ok (h.insert hne (get?_dropLast_of_reach hstart hreach) fun _ => rfl)

theorem sameResult_writeFile (h : SameView t u) (hstart : t.HasStart p) (content : Bytes) :
    SameResult (t.writeFile p content) (u.writeFile p content) := by
  rw [writeFile, writeFile, reach_of_sameKinds h.sameKinds]
  cases hreach : t.reach p with
  | error fault => exact .error fault
  | ok place =>
    simp only [bind, Except.bind, h.get? place]
    split
    · exact .error _
    · next hfree =>
      have hne : place ≠ [] := by
        rintro rfl
        exact hfree rfl
      exact .ok (h.insert hne (get?_dropLast_of_reach hstart hreach) fun hdir => absurd hdir hfree)

theorem sameEnd_acceptDir (h : SameView t u) (p : Path) (fault : Fault) :
    SameEnd (t, t.acceptDir p fault) (u, u.acceptDir p fault) := by
  refine ⟨h, ?_⟩
  show u.acceptDir p fault = t.acceptDir p fault
  rw [acceptDir.eq_def, acceptDir.eq_def, isDir_of_sameKinds h.sameKinds]

theorem sameEnd_makeAncestor (h : SameView t u) (hcwd : t.HasCwd) (p : Path) (count : Nat) :
    SameEnd (t.makeAncestor p count) (u.makeAncestor p count) := by
  induction count with
  | zero => exact ⟨h, rfl⟩
  | succ count ih =>
    rw [makeAncestor, makeAncestor]
    have hdir : SameResult (t.makeDir (p.upTo (count + 1))) (u.makeDir (p.upTo (count + 1))) :=
      sameResult_makeDir h (hcwd.hasStart _)
    have hgrows := grows_of_makeAncestor (p := p) (hcwd.hasStart p) count
    rw [Path.upTo] at hdir
    generalize t.makeDir _ = made, u.makeDir _ = made' at hdir ⊢
    cases hdir with
    | ok h' => exact ⟨h', rfl⟩
    | error fault =>
      cases fault with
      | os e =>
        cases e with
        | notFound =>
          dsimp only
          generalize t.makeAncestor p count = above, u.makeAncestor p count = above' at ih hgrows ⊢
          obtain ⟨above, outcome⟩ := above
          obtain ⟨above', outcome'⟩ := above'
          obtain ⟨hview, rfl : outcome' = outcome⟩ := ih
          cases outcome' with
          | error fault => exact ⟨hview, rfl⟩
          | ok done =>
            have hagain : SameResult (above.makeDir (p.upTo (count + 1))) (above'.makeDir (p.upTo (count + 1))) :=
              sameResult_makeDir hview ((hgrows.keepsDirs.hasCwd hcwd).hasStart _)
            rw [Path.upTo] at hagain
            dsimp only
            generalize above.makeDir _ = made, above'.makeDir _ = made' at hagain ⊢
            cases hagain with
            | ok h' => exact ⟨h', rfl⟩
            | error fault =>
              cases fault with
              | os e =>
                cases e with
                | notFound => exact ⟨hview, rfl⟩
                | _ => exact sameEnd_acceptDir hview _ _
              | _ => exact sameEnd_acceptDir hview _ _
        | _ => exact sameEnd_acceptDir h _ _
      | _ => exact sameEnd_acceptDir h _ _

/-! ### Directories that could not be made -/

theorem exists_missing_of_walk {start : Place} {parts : List Text} (h : t.walk start parts = .error .notFound) :
    ∃ count < parts.length, ∃ place, t.walk start (parts.take count) = .ok place ∧ t.get? place = none := by
  induction parts generalizing start with
  | nil => cases h
  | cons part parts ih =>
    cases hstart : t.get? start with
    | none => exact ⟨0, Nat.succ_pos _, start, rfl, hstart⟩
    | some entry =>
      cases entry with
      | file content =>
        rw [walk, hstart] at h
        cases h
      | directory =>
        have hstep : ∀ next, (∀ rest, t.walk start (part :: rest) = t.walk next rest) →
            ∃ count < (part :: parts).length, ∃ place, t.walk start ((part :: parts).take count) = .ok place ∧ t.get? place = none := by
          intro next hnext
          rw [hnext] at h
          obtain ⟨count, hcount, place, hwalk, hmissing⟩ := ih h
          exact ⟨count + 1, Nat.succ_lt_succ hcount, place, by rw [List.take_succ_cons, hnext, hwalk], hmissing⟩
        by_cases hup : part = Path.up
        · exact hstep start.dropLast fun rest => by rw [walk, hstart]; exact if_pos hup
        · by_cases hstay : part = Path.stay
          · exact hstep start fun rest => by rw [walk, hstart]; exact (if_neg hup).trans (if_pos hstay)
          · by_cases hlong : nameLimit < Charset.Utf8.size part
            · rw [walk, hstart] at h
              simp only [if_neg hup, if_neg hstay, if_pos hlong] at h
              cases h
            · exact hstep (start ++ [part]) fun rest => by
                rw [walk, hstart]
                exact (if_neg hup).trans ((if_neg hstay).trans (if_neg hlong))

/-- A file can go to the path as far as the output directory, which takes up the first `known` names, has to do with it: what is above the directory is there, and from there on the names are plain and short. -/
structure HasWay (t : Tree) (known : Nat) (p : Path) : Prop where
  there : ∀ count < known, ∃ place, t.walk (t.startOf p) (p.parts.take count) = .ok place ∧ (t.get? place).isSome
  plain : ∀ name ∈ p.parts.drop known, name ≠ Path.up ∧ name ≠ Path.stay ∧ Charset.Utf8.size name ≤ nameLimit

theorem walk_of_makeDir_notFound (h : t.makeDir p = .error (.os .notFound)) :
    p.hasNull = false ∧ Charset.Utf8.size p.toText ≤ pathLimit ∧ t.walk (t.startOf p) p.parts = .error .notFound := by
  have hreach : t.reach p = .error (.os .notFound) := by
    rw [makeDir] at h
    cases hreach : t.reach p with
    | error fault =>
      simpa [hreach, bind, Except.bind] using h
    | ok place =>
      rw [hreach] at h
      cases hget : t.get? place <;> simp [bind, Except.bind, hget, throw, throwThe, MonadExceptOf.throw, pure, Except.pure] at h
  rw [reach_eq] at hreach
  by_cases hnull : p.hasNull = true
  · simp [hnull] at hreach
  · by_cases hlong : pathLimit < Charset.Utf8.size p.toText
    · simp [hnull, hlong] at hreach
    · rw [if_neg hnull, if_neg hlong] at hreach
      refine ⟨by simpa using hnull, Nat.le_of_not_lt hlong, ?_⟩
      cases hwalk : t.walk (t.startOf p) p.parts with
      | ok place => simp [hwalk, Except.mapError] at hreach
      | error e =>
        rw [hwalk] at hreach
        rw [Fault.os.inj (Except.error.inj hreach)]

/-- What is missing on the way is in the part that is plain. -/
theorem HasWay.exists_gap {known : Nat} (hway : t.HasWay known p)
    (hwalk : t.walk (t.startOf p) (p.parts.take (count + 1)) = .error .notFound) :
    ∃ k, known ≤ k ∧ k ≤ count ∧ ∃ gap, t.walk (t.startOf p) (p.parts.take k) = .ok gap ∧ t.get? gap = none := by
  obtain ⟨k, hk, gap, hgap, hnone⟩ := exists_missing_of_walk hwalk
  have hcount : k ≤ count := Nat.le_of_lt_succ (Nat.lt_of_lt_of_le hk (by rw [List.length_take]; exact Nat.min_le_left _ _))
  rw [List.take_take, Nat.min_eq_left (Nat.le_succ_of_le hcount)] at hgap
  refine ⟨k, ?_, hcount, gap, hgap, hnone⟩
  by_contra hbefore
  obtain ⟨place, hplace, hsome⟩ := hway.there k (Nat.lt_of_not_le hbefore)
  obtain rfl := Except.ok.inj (hgap.symm.trans hplace)
  simp [hnone] at hsome

theorem isPrefix_of_walk_take {k : Nat} {gap : Place} (hcwd : u.cwd = t.cwd) (hk : k ≤ count)
    (hgap : t.walk (t.startOf p) (p.parts.take k) = .ok gap) (hplace : u.walk (u.startOf p) (p.parts.take count) = .ok place)
    (hup : Path.up ∉ p.parts.drop k) : gap <+: place := by
  have hstart : u.startOf p = t.startOf p := by rw [startOf, startOf, hcwd]
  have hsplit : p.parts.take count = p.parts.take k ++ (p.parts.drop k).take (count - k) := by
    rw [← List.take_add, Nat.add_sub_cancel' hk]
  rw [u.walk_eq_foldl _ _ _ hplace, hstart, hsplit, List.foldl_append, ← t.walk_eq_foldl _ _ _ hgap]
  exact Path.isPrefix_foldl_step (fun hmem => hup (List.mem_of_mem_take hmem)) gap

theorem get?_eq_none_of_isPrefix {gap : Place} (hnone : t.get? gap = none) (hbelow : gap <+: place) : t.get? place = none := by
  by_cases hsame : gap = place
  · rw [← hsame, hnone]
  · exact t.get?_of_isPrefix (by simp [hnone]) hbelow hsame

theorem HasWay.makeDir_or {known : Nat} (hway : t.HasWay known p) (hcwd : t.HasCwd) (hcount : count + 1 < p.parts.length)
    (hmissing : t.makeDir (p.upTo (count + 1)) = .error (.os .notFound)) (hmake : t.makeAncestor p.parent count = (u, .ok ())) :
    (∃ made, u.makeDir (p.upTo (count + 1)) = .ok made) ∨
      u.makeDir (p.upTo (count + 1)) = .error (.os .exists) ∧ u.acceptDir (p.upTo (count + 1)) (.os .exists) = .ok () := by
  have hless : count < p.parts.length := Nat.lt_of_succ_lt hcount
  obtain ⟨hnull, hshort, hwalk⟩ := walk_of_makeDir_notFound hmissing
  obtain ⟨k, hknown, hk, gap, hgap, hnone⟩ := hway.exists_gap hwalk
  have hplain : ∀ name ∈ p.parts.drop k, name ≠ Path.up ∧ name ≠ Path.stay ∧ Charset.Utf8.size name ≤ nameLimit :=
    fun name hname => hway.plain name ((List.drop_subset_drop_left p.parts hknown) hname)
  have hname : p.parts[count] ∈ p.parts.drop k := by
    rw [List.mem_drop_iff_getElem]
    exact ⟨count - k, by omega, by congr 1; omega⟩
  obtain ⟨hup, hstay, hsize⟩ := hplain _ hname
  have hdiffers : DiffersBy ⟨(· = p), fun _ _ => False⟩ t u := by
    have hdirs : DiffersBy ⟨(· = p), fun _ _ => False⟩ t (t.makeAncestor p.parent count).1 :=
      differsBy_makeAncestor (hcwd.hasStart p) rfl hless
    rwa [hmake] at hdirs
  have hentry := entry_of_makeAncestor hcwd hmake
  rw [Path.upTo_parent hless] at hentry
  obtain ⟨dir, hdir, -, hstep⟩ := walk_take_succ hless hentry
  rw [walk_singleton, hdir] at hstep
  simp only [if_neg hup, if_neg hstay, if_neg (Nat.not_lt.2 hsize)] at hstep
  refine makeDir_or_acceptDir (reach_eq_ok_iff.2 ⟨hnull, hshort, hstep⟩) ?_
  cases hdiffers.change (dir ++ [p.parts[count]]) with
  | directory q less _ _ _ _ hnew => simp [hnew]
  | file q content hholds _ _ _ => exact hholds.elim
  | same hsame =>
    have hbelow := isPrefix_of_walk_take hdiffers.cwd (Nat.le_succ_of_le hk) hgap hstep fun hmem => (hplain _ hmem).1 rfl
    simp [hsame, get?_eq_none_of_isPrefix hnone hbelow]

/-- Nothing is made on the way to a directory that cannot be made. -/
theorem fst_makeAncestor_of_error {known : Nat} {fault : Fault} (hcwd : t.HasCwd) (hway : t.HasWay known p)
    (hcount : count < p.parts.length) (h : t.makeAncestor p.parent count = (u, .error fault)) : u = t := by
  induction count generalizing u fault with
  | zero => cases h
  | succ count ih =>
    have hless : count < p.parts.length := Nat.lt_of_succ_lt hcount
    have hdir : (⟨p.parent.anchor, p.parent.parts.take (count + 1)⟩ : Path) = p.upTo (count + 1) := Path.upTo_parent hcount
    rw [makeAncestor, hdir] at h
    split at h
    · cases h
    · next hmissing =>
      split at h
      · next above fault' habove =>
        obtain rfl := congrArg Prod.fst h
        exact ih hless habove
      · next above habove =>
        obtain ⟨made, hmade⟩ | ⟨hexists, haccept⟩ := hway.makeDir_or hcwd hcount hmissing habove
        · rw [hmade] at h
          cases h
        · rw [hexists] at h
          cases (congrArg Prod.snd h).symm.trans haccept
    · exact (congrArg Prod.fst h).symm

theorem fst_makeDirs_of_error {known : Nat} {fault : Fault} (hcwd : t.HasCwd) (hway : t.HasWay known p)
    (h : t.makeDirs p.parent = (u, .error fault)) : u = t := by
  have hlength : p.parent.parts.length = p.parts.length - 1 := List.length_dropLast
  rw [makeDirs, hlength] at h
  cases hparts : p.parts with
  | nil =>
    rw [hparts] at h
    cases h
  | cons name rest => exact fst_makeAncestor_of_error hcwd hway (by rw [hparts]; simp) h

/-! ### Once more -/

def KeepsFile (t u : Tree) (place : Place) : Prop := ∀ content, t.get? place = some (.file content) → u.get? place = some (.file content)

theorem isDir_of_keepsDirs (h : KeepsDirs t u) (hdir : t.isDir p = .ok true) : u.isDir p = .ok true := by
  obtain ⟨hreach, hget⟩ := exists_reach_of_isDir hdir
  have hentry : u.entry p = .ok .directory := entryAt_eq_ok_iff.2 ⟨_, reach_of_keepsDirs h hreach, h.get? _ hget⟩
  rw [isDir, hentry]

theorem makeDirs_of_entry (h : t.entry p = .ok .directory) : t.makeDirs p = (t, .ok ()) := by
  obtain ⟨place, hreach, hget⟩ := entryAt_eq_ok_iff.1 h
  cases hlength : p.parts.length with
  | zero =>
    rw [makeDirs, hlength]
    rfl
  | succ count =>
    have hwhole : (⟨p.anchor, p.parts.take (count + 1)⟩ : Path) = p := by rw [← hlength, List.take_length]
    have hexists : t.makeDir p = .error (.os .exists) := by
      rw [makeDir, hreach]
      simp [bind, Except.bind, hget, throw, throwThe, MonadExceptOf.throw]
    have haccept : t.acceptDir p (.os .exists) = .ok () := by
      have hisDir : t.isDir p = .ok true := by rw [isDir, h]
      simp only [acceptDir, hisDir]
    rw [makeDirs, hlength, makeAncestor, hwhole, hexists]
    exact Prod.ext rfl haccept

theorem writeFile_again (hstart : t.HasStart p) (hreach : t.reach p = .ok place) (hget : t.get? place = some (.file content)) :
    ∃ after, t.writeFile p content = .ok after ∧ SameView t after := by
  have hwrite : t.writeFile p content = .ok (t.insert place (.file content)) := by
    rw [writeFile, hreach]
    simp [bind, Except.bind, hget, pure, Except.pure]
  obtain ⟨other, hother, hkeeps, hafter⟩ := get?_of_writeFile hstart hwrite
  obtain rfl : place = other := Except.ok.inj (hreach.symm.trans hother)
  refine ⟨_, hwrite, hkeeps.cwd, fun q => ?_⟩
  rw [hafter]
  split
  · next hq => rw [hq, hget]
  · rfl

theorem exists_of_writeFile_again (hcwd : t.HasCwd) (h : t.writeFile p content = .ok u) (hw : KeepsDirs t w)
    (hfile : ∀ place, t.reach p = .ok place → KeepsFile u w place) :
    ∃ after, w.writeFile p content = .ok after ∧ SameView w after := by
  obtain ⟨place, hreach, -, hget⟩ := get?_of_writeFile (hcwd.hasStart p) h
  exact writeFile_again ((hw.hasCwd hcwd).hasStart p) (reach_of_keepsDirs hw hreach) (hfile place hreach content (by rw [hget, if_pos rfl]))

theorem writeText_again {text : Text} (hcwd : t.HasCwd) (h : t.writeText p text encoding = .ok u) (hw : KeepsDirs t w)
    (hfile : ∀ place, t.reach p = .ok place → KeepsFile u w place) :
    ∃ after, w.writeText p text encoding = .ok after ∧ SameView w after := by
  rw [writeText_eq, bind_eq_ok_iff] at h
  obtain ⟨beside, hbeside, h⟩ := h
  obtain ⟨content, hcontent, h⟩ := bind_eq_ok_iff.1 h
  obtain ⟨after, hafter, hview⟩ := exists_of_writeFile_again hcwd (writeFile_of_replaceFile h) hw hfile
  refine ⟨after, ?_, hview⟩
  rw [writeText_eq, temporary_eq_of_cwd hw.cwd, reach_of_keepsDirs hw hbeside, hcontent]
  rw [replaceFile, bind_eq_ok_iff] at h
  obtain ⟨place, hplace, h⟩ := h
  show w.replaceFile p content = .ok after
  rw [replaceFile, reach_of_keepsDirs hw hplace]
  split at h
  · cases h
  · next hlast => exact (if_neg hlast).trans hafter

theorem copyInto_again {source : Path} (hcwd : t.HasCwd) (h : t.copyInto (t.reach source) p = .ok u) (hw : KeepsDirs t w)
    (hsource : ∀ origin, t.reach source = .ok origin → KeepsFile t w origin)
    (hfile : ∀ place, t.reach p = .ok place → KeepsFile u w place) :
    ∃ after, w.copyInto (w.reach source) p = .ok after ∧ SameView w after := by
  obtain ⟨origin, content, horigin, hget, hother, hwrite⟩ := exists_of_copyInto h
  obtain ⟨place, hplace, -, -⟩ := get?_of_writeFile (hcwd.hasStart p) hwrite
  have hne : origin ≠ place := by
    rintro rfl
    exact hother hplace
  rw [copyInto_eq_writeFile (reach_of_keepsDirs hw horigin) (hsource origin horigin content hget) (reach_of_keepsDirs hw hplace) hne]
  exact exists_of_writeFile_again hcwd hwrite hw hfile

theorem sameResult_writeText (h : SameView t u) (hcwd : t.HasCwd) (p : Path) (text : Text) (encoding : Option Text) :
    SameResult (t.writeText p text encoding) (u.writeText p text encoding) := by
  rw [writeText_eq, writeText_eq, temporary_eq_of_cwd h.cwd, reach_of_sameKinds h.sameKinds]
  cases t.reach (t.temporary p) with
  | error fault => exact .error fault
  | ok beside =>
    cases encoded text encoding with
    | error fault => exact .error fault
    | ok content =>
      show SameResult (t.replaceFile p content) (u.replaceFile p content)
      rw [replaceFile, replaceFile, reach_of_sameKinds h.sameKinds]
      cases t.reach p with
      | error fault => exact .error fault
      | ok place =>
        simp only [bind, Except.bind]
        split
        · exact .error _
        · exact sameResult_writeFile h (hcwd.hasStart p) content

theorem sameResult_copyInto {source : Path} (h : SameView t u) (hcwd : t.HasCwd) (p : Path) :
    SameResult (t.copyInto (t.reach source) p) (u.copyInto (u.reach source) p) := by
  have hsame : ∀ place, u.get? place = t.get? place := h.get?
  rw [reach_of_sameKinds h.sameKinds]
  generalize t.reach source = origin
  have hisSame : u.isSame origin (u.reach p) = t.isSame origin (t.reach p) := by
    rw [reach_of_sameKinds h.sameKinds]
    cases origin <;> cases t.reach p <;> simp only [isSame, hsame]
  have hread : u.readAt origin = t.readAt origin := by
    simp only [readAt, entryAt, hsame]
  rw [copyInto_eq, copyInto_eq, hisSame, hread]
  split
  · exact .error _
  · split
    · exact .error _
    · cases t.readAt origin with
      | error fault => exact .error fault
      | ok content => exact sameResult_writeFile h (hcwd.hasStart p) content

/-- Writing below new directories that is done again ends as it did and changes nothing that shows. -/
theorem belowNewDirs_again {known : Nat} {finish : Tree → Except Fault Tree} {outcome : Except Fault Unit} (hcwd : t.HasCwd)
    (hway : t.HasWay known p) (h : t.belowNewDirs p finish = (u, outcome)) (hw : KeepsDirs u w)
    (hkeeps : ∀ above after, Grows t above → finish above = .ok after → KeepsDirs above after)
    (hresult : ∀ a b, SameView a b → a.HasCwd → SameResult (finish a) (finish b))
    (hagain : ∀ above, Grows t above → finish above = .ok u → ∃ after, finish w = .ok after ∧ SameView w after)
    (herror : outcome ≠ .ok () → SameView u w) :
    ∃ after, w.belowNewDirs p finish = (after, outcome) ∧ SameView w after := by
  have hgrows : Grows t (t.makeDirs p.parent).1 := grows_of_makeAncestor (p := p.parent) (hcwd.hasStart _) _
  rw [belowNewDirs] at h ⊢
  split at h
  · next above fault habove =>
    obtain ⟨rfl, rfl⟩ := Prod.mk.inj h
    have hview := herror (by simp)
    obtain rfl := fst_makeDirs_of_error hcwd hway habove
    have hend := sameEnd_makeAncestor hview hcwd p.parent p.parent.parts.length
    rw [← makeDirs, ← makeDirs, habove] at hend
    generalize w.makeDirs p.parent = again at hend ⊢
    obtain ⟨after, outcome⟩ := again
    obtain ⟨hafter, rfl : outcome = .error fault⟩ := hend
    exact ⟨after, rfl, hview.symm.trans hafter⟩
  · next above habove =>
    rw [habove] at hgrows
    have hparent := entry_of_makeDirs hcwd habove
    obtain ⟨dir, hdir, hget⟩ := entryAt_eq_ok_iff.1 hparent
    have hthere : KeepsDirs above w → w.makeDirs p.parent = (w, .ok ()) := fun hkept =>
      makeDirs_of_entry (entryAt_eq_ok_iff.2 ⟨dir, reach_of_keepsDirs hkept hdir, hkept.get? dir hget⟩)
    split at h
    · next after hafter =>
      obtain ⟨rfl, rfl⟩ := Prod.mk.inj h
      obtain ⟨again, hfinish, hview⟩ := hagain above hgrows hafter
      rw [hthere ((hkeeps above after hgrows hafter).trans hw)]
      exact ⟨again, by simp only [hfinish], hview⟩
    · next fault hfault =>
      obtain ⟨rfl, rfl⟩ := Prod.mk.inj h
      have hview := herror (by simp)
      have hfinish : finish w = .error fault := by
        have hsame := hresult above w hview (hgrows.keepsDirs.hasCwd hcwd)
        rw [hfault] at hsame
        generalize finish w = again at hsame ⊢
        cases hsame
        rfl
      rw [hthere hw]
      exact ⟨w, by simp only [hfinish], SameView.refl w⟩

section

variable {known : Nat} {outcome : Except Fault Unit}

theorem writeLines_again {lines : List Text} (hcwd : t.HasCwd) (hway : t.HasWay known p)
    (h : t.writeLines p lines encoding = (u, outcome)) (hw : KeepsDirs u w) (hfile : KeepsFile u w (p.normalize t.cwd))
    (herror : outcome ≠ .ok () → SameView u w) : ∃ after, w.writeLines p lines encoding = (after, outcome) ∧ SameView w after := by
  have hkeeps : ∀ above after, Grows t above → above.writeText p (textOfLines lines) encoding = .ok after → KeepsDirs above after := by
    intro above after hgrows hwrite
    obtain ⟨-, content, -, -, hfile⟩ := exists_of_writeText hwrite
    obtain ⟨-, -, hkeeps, -⟩ := get?_of_writeFile (hgrows.keepsDirs.hasStart (hcwd.hasStart p)) hfile
    exact hkeeps
  refine belowNewDirs_again hcwd hway h hw hkeeps (fun a b hview ha => sameResult_writeText hview ha p _ encoding) ?_ herror
  intro above hgrows hwrite
  refine writeText_again (hgrows.keepsDirs.hasCwd hcwd) hwrite ((hkeeps above u hgrows hwrite).trans hw) fun place hreach => ?_
  rw [← normalize_of_reach hreach, hgrows.cwd]
  exact hfile

theorem copyFile_again {source : Path} (hcwd : t.HasCwd) (hway : t.HasWay known p) (hread : t.read source = .ok content)
    (hsource : w.entry source = t.entry source) (h : t.copyFile source p = (u, outcome)) (hw : KeepsDirs u w)
    (hfile : KeepsFile u w (p.normalize t.cwd)) (herror : outcome ≠ .ok () → SameView u w) :
    ∃ after, w.copyFile source p = (after, outcome) ∧ SameView w after := by
  have hkeeps : ∀ above after, Grows t above → above.copyInto (above.reach source) p = .ok after → KeepsDirs above after := by
    intro above after hgrows hcopy
    obtain ⟨-, content, -, -, -, hfile⟩ := exists_of_copyInto hcopy
    obtain ⟨-, -, hkeeps, -⟩ := get?_of_writeFile (hgrows.keepsDirs.hasStart (hcwd.hasStart p)) hfile
    exact hkeeps
  refine belowNewDirs_again hcwd hway h hw hkeeps (fun a b hview ha => sameResult_copyInto hview ha p) ?_ herror
  intro above hgrows hcopy
  have hkept := (hkeeps above u hgrows hcopy).trans hw
  refine copyInto_again (hgrows.keepsDirs.hasCwd hcwd) hcopy hkept (fun origin horigin bytes hbytes => ?_) fun place hreach => ?_
  · obtain ⟨first, hfirst, hget⟩ := readAt_eq_ok_iff.1 hread
    obtain ⟨last, hlast, hget'⟩ := readAt_eq_ok_iff.1 ((read_of_entry_eq hsource).trans hread)
    obtain rfl : first = origin := Except.ok.inj ((reach_of_keepsDirs hgrows.keepsDirs hfirst).symm.trans horigin)
    obtain rfl : last = first := Except.ok.inj (hlast.symm.trans (reach_of_keepsDirs hkept horigin))
    rw [hget', ← hbytes, hgrows.get? last _ hget]
  · rw [← normalize_of_reach hreach, hgrows.cwd]
    exact hfile

end

end Quotation.Tree
