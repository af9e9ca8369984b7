import Mathlib.Data.List.Induction
import Quotation.Proofs.Tree.Limits
import Quotation.Proofs.Tree.Output
import Quotation.Tree.Staged

/-!
# Temporary files

New content goes to a temporary file first, under a name that the system chooses. Whatever it chooses, and however the writing ends, the tree shows the same afterwards as if the content had been put in place at once, so nothing is left of the temporary file (`sameView_writeLinesStaged`). Two facts carry this: where the directory of the destination is there, a file more in it does not change where the destination leads (`reach_eq_of_parent`), and making a file and taking it away again is as if nothing had been done (`sameView_erase`).
-/

namespace Quotation

namespace Tree

open Outcome

variable {t u : Tree} {p : Path} {place : Place} {content : Bytes} {name suffix : Text}

/-! ### Names of temporary files -/

theorem isSuffix_replicate : IsSuffix (List.replicate 8 '_') := by
  refine ⟨rfl, fun c hc => ?_⟩
  obtain ⟨-, rfl⟩ := List.mem_replicate.1 hc
  decide

theorem size_suffix (h : IsSuffix suffix) : Charset.Utf8.size suffix = 8 := by
  obtain ⟨hlength, hmem⟩ := h
  have hsize : ∀ s : Text, (∀ c ∈ s, c ∈ suffixCharacters) → Charset.Utf8.size s = s.length := by
    intro s hs
    induction s with
    | nil => rfl
    | cons c cs ih =>
      have hall : (suffixCharacters.all fun d => d.utf8Size = 1) = true := by decide
      have hone : c.utf8Size = 1 := by simpa using List.all_eq_true.1 hall c (hs c (by simp))
      rw [Charset.Utf8.size, hone, ih fun d hd => hs d (List.mem_cons_of_mem _ hd), List.length_cons,
        Nat.add_comm]
  rw [hsize suffix hmem, hlength]

theorem size_temporaryName (h : IsSuffix suffix) :
    Charset.Utf8.size (temporaryName name suffix) = Charset.Utf8.size name + 10 := by
  have hname : Charset.Utf8.size ('.' :: name) = 1 + Charset.Utf8.size name := rfl
  have hend : Charset.Utf8.size ('.' :: suffix) = 1 + Charset.Utf8.size suffix := rfl
  rw [temporaryName, Charset.Utf8.size_append, hname, hend, size_suffix h]
  omega

theorem temporaryName_ne (h : IsSuffix suffix) :
    temporaryName name suffix ≠ Path.up ∧ temporaryName name suffix ≠ Path.stay := by
  have hlong : 2 < (temporaryName name suffix).length := by
    have := h.1
    simp only [temporaryName, List.length_append, List.length_cons]
    omega
  constructor <;> intro heq <;> simp [heq, Path.up, Path.stay] at hlong

theorem any_null_temporaryName (h : IsSuffix suffix) :
    (temporaryName name suffix).any (· = '\x00') = name.any (· = '\x00') := by
  have hall : (suffixCharacters.all fun d => d ≠ '\x00') = true := by decide
  have hclean : suffix.any (· = '\x00') = false :=
    List.any_eq_false.2 fun c hc => by simpa using List.all_eq_true.1 hall c (h.2 c hc)
  simp [temporaryName, hclean]

/-! ### Where they are made -/

theorem temporary_eq_of_cwd (h : u.cwd = t.cwd) (p : Path) : u.temporary p = t.temporary p := by
  rw [temporary, temporary, temporaryNamed, temporaryNamed, h]

/-- A path can be walked or not for reasons that its last name has no part in, other than by its size. -/
theorem failure?_reach_concat (anchor : Anchor) (dir : List Text) {name other : Text} (hname : name ≠ Path.up ∧ name ≠ Path.stay)
    (hother : other ≠ Path.up ∧ other ≠ Path.stay) (hsize : Charset.Utf8.size name = Charset.Utf8.size other)
    (hnull : name.any (· = '\x00') = other.any (· = '\x00')) :
    failure? (t.reach ⟨anchor, dir ++ [name]⟩) = failure? (t.reach ⟨anchor, dir ++ [other]⟩) := by
  have hnulls : (Path.mk anchor (dir ++ [name])).hasNull = (Path.mk anchor (dir ++ [other])).hasNull := by
    simp only [Path.hasNull, List.any_append, List.any_cons, hnull]
  have htexts : Charset.Utf8.size (Path.mk anchor (dir ++ [name])).toText =
      Charset.Utf8.size (Path.mk anchor (dir ++ [other])).toText := by
    obtain ⟨front, hfront⟩ := Text.exists_join_concat '/' dir
    rw [Path.toText_of_ne_nil anchor (by simp), Path.toText_of_ne_nil anchor (by simp), hfront, hfront]
    simp only [Charset.Utf8.size_append, hsize]
  have hwalks : ∀ start, failure? (t.walk start (dir ++ [name])) = failure? (t.walk start (dir ++ [other])) := by
    intro start
    rw [walk_append, walk_append]
    cases t.walk start dir with
    | error e => rfl
    | ok place =>
      change failure? (t.walk place [name]) = failure? (t.walk place [other])
      rw [walk_singleton, walk_singleton, if_neg hname.1, if_neg hname.2, if_neg hother.1, if_neg hother.2, hsize]
      cases t.get? place with
      | none => rfl
      | some entry =>
        cases entry with
        | file content => rfl
        | directory =>
          dsimp only
          split <;> rfl
  rw [reach, reach, hnulls, htexts]
  split
  · rfl
  · split
    · rfl
    · rw [failure?_mapError, failure?_mapError, hwalks]

theorem failure?_reach_temporaryNamed {other : Text} (h : IsSuffix suffix) (hother : IsSuffix other) :
    failure? (t.reach (t.temporaryNamed p suffix)) = failure? (t.reach (t.temporaryNamed p other)) := by
  refine failure?_reach_concat .root _ (temporaryName_ne h) (temporaryName_ne hother) ?_ ?_
  · rw [size_temporaryName h, size_temporaryName hother]
  · rw [any_null_temporaryName h, any_null_temporaryName hother]

/-! ### The directory of the destination -/

theorem entry_upTo_zero (hcwd : t.HasCwd) : t.entry (p.upTo 0) = .ok .directory := by
  have hshort : Charset.Utf8.size (p.upTo 0).toText ≤ pathLimit := by
    change Charset.Utf8.size (Path.mk p.anchor []).toText ≤ pathLimit
    cases p.anchor <;> decide
  refine entryAt_eq_ok_iff.2 ⟨t.startOf (p.upTo 0), reach_eq_ok_iff.2 ⟨rfl, hshort, rfl⟩, ?_⟩
  rw [startOf, Path.upTo]
  cases p.anchor with
  | here => exact hcwd
  | root => exact t.get?_root
  | doubleRoot => exact t.get?_root

theorem entry_of_makeDir (hstart : t.HasStart p) (h : t.makeDir p = .ok u) : u.entry p = .ok .directory := by
  obtain ⟨place, hreach, -, hkeeps, hget⟩ := get?_of_makeDir hstart h
  exact entryAt_eq_ok_iff.2 ⟨place, reach_of_keepsDirs hkeeps hreach, by rw [hget, if_pos rfl]⟩

theorem entry_of_acceptDir {fault : Fault} (h : t.acceptDir p fault = .ok ()) : t.entry p = .ok .directory := by
  rw [acceptDir.eq_def] at h
  split at h
  · next hdir => exact entry_of_isDir hdir
  · cases h

theorem entry_of_makeAncestor {count : Nat} (hcwd : t.HasCwd) (h : t.makeAncestor p count = (u, .ok ())) :
    u.entry (p.upTo count) = .ok .directory := by
  cases count with
  | zero =>
    obtain rfl : t = u := congrArg Prod.fst h
    exact entry_upTo_zero hcwd
  | succ count =>
    have hgrows := grows_of_makeAncestor (p := p) (hcwd.hasStart p) count
    rw [makeAncestor] at h
    split at h
    · next made hmade =>
      obtain rfl : made = u := congrArg Prod.fst h
      exact entry_of_makeDir (hcwd.hasStart _) hmade
    · split at h
      · cases h
      · next above habove =>
        rw [habove] at hgrows
        split at h
        · next made hmade =>
          obtain rfl : made = u := congrArg Prod.fst h
          exact entry_of_makeDir (hgrows.keepsDirs.hasStart (hcwd.hasStart _)) hmade
        · cases h
        · obtain ⟨rfl, haccept⟩ := Prod.mk.inj h
          exact entry_of_acceptDir haccept
    · obtain ⟨rfl, haccept⟩ := Prod.mk.inj h
      exact entry_of_acceptDir haccept

theorem entry_of_makeDirs (hcwd : t.HasCwd) (h : t.makeDirs p = (u, .ok ())) : u.entry p = .ok .directory := by
  have hall : p.upTo p.parts.length = p := by rw [Path.upTo, List.take_length]
  have hentry := entry_of_makeAncestor hcwd h
  rwa [hall] at hentry

/-- From a directory that is there its files are reached in the same way, whatever else is new. -/
theorem reach_eq_of_parent (h : KeepsDirs t u) (hparent : t.entry p.parent = .ok .directory) : u.reach p = t.reach p := by
  obtain ⟨dir, hdir, hget⟩ := entryAt_eq_ok_iff.1 hparent
  obtain ⟨-, -, hwalk⟩ := reach_eq_ok_iff.1 hdir
  have hstart : u.startOf p = t.startOf p := by rw [startOf, startOf, h.cwd]
  have hwalks : u.walk (t.startOf p) p.parts = t.walk (t.startOf p) p.parts := by
    obtain hparts | ⟨front, last, hparts⟩ := List.eq_nil_or_concat p.parts
    · rw [hparts]
      rfl
    · rw [List.concat_eq_append] at hparts
      have hfront : t.walk (t.startOf p) front = .ok dir := by
        have hdrop : p.parent.parts = front := by rw [Path.parent, hparts, List.dropLast_concat]
        rw [← hdrop]
        exact hwalk
      rw [hparts, walk_append, walk_append, walk_of_keepsDirs h hfront, hfront]
      change u.walk dir [last] = t.walk dir [last]
      rw [walk_singleton, walk_singleton, hget, h.get? dir hget]
  rw [reach_eq, reach_eq, hstart, hwalks]

/-! ### Views -/

theorem get?_of_isPrefix (t : Tree) {place other : Place} (hplace : t.get? place ≠ some .directory) (hbelow : place <+: other)
    (hother : place ≠ other) : t.get? other = none := by
  obtain ⟨below, rfl⟩ := hbelow
  induction below using List.reverseRecOn with
  | nil => simp at hother
  | append_singleton below name ih =>
    by_contra hsome
    have habove : t.get? (place ++ below) = some .directory := by
      have hdrop := t.get?_dropLast _ (Option.isSome_iff_ne_none.2 hsome)
      rwa [← List.append_assoc, List.dropLast_concat] at hdrop
    by_cases hbelow : place = place ++ below
    · exact hplace (hbelow ▸ habove)
    · cases habove.symm.trans (ih hbelow)

structure SameView (before after : Tree) : Prop where
  cwd : after.cwd = before.cwd
  get? : ∀ place, after.get? place = before.get? place

theorem SameView.refl (t : Tree) : SameView t t := ⟨rfl, fun _ => rfl⟩

theorem SameView.insert {entry : Entry} (h : SameView t u) (hplace : place ≠ [])
    (hparent : t.get? place.dropLast = some .directory) (hkind : t.get? place = some .directory → entry = .directory) :
    SameView (t.insert place entry) (u.insert place entry) := by
  refine ⟨h.cwd, fun other => ?_⟩
  rw [t.get?_insert place other entry hplace hparent hkind,
    u.get?_insert place other entry hplace (by rw [h.get?, hparent]) (by rwa [h.get?]), h.get?]

/-- A tree with a file more, where there was nothing. -/
structure HasMore (t : Tree) (place : Place) (content : Bytes) (u : Tree) : Prop where
  cwd : u.cwd = t.cwd
  get? : ∀ other, u.get? other = if other = place then some (.file content) else t.get? other

theorem HasMore.keepsDirs (h : HasMore t place content u) (habsent : t.get? place = none) : KeepsDirs t u := by
  refine ⟨h.cwd, fun other hother => ?_⟩
  rw [h.get?, if_neg]
  · exact hother
  · rintro rfl
    cases habsent.symm.trans hother

theorem HasMore.sameView_erase (h : HasMore t place content u) (habsent : t.get? place = none) :
    SameView t (u.erase place) := by
  have hne : place ≠ [] := by
    rintro rfl
    cases habsent
  refine ⟨h.cwd, fun other => ?_⟩
  rw [u.get?_erase place other hne, h.get?]
  by_cases hother : other = place
  · subst hother
    rw [if_pos List.prefix_rfl, habsent]
  · rw [if_neg hother]
    split
    · next hbelow => rw [t.get?_of_isPrefix (by simp [habsent]) hbelow (Ne.symm hother)]
    · rfl

theorem hasMore_of_makeFile {q : Path} (hstart : t.HasStart q) (h : t.makeFile q = .ok (place, u)) :
    t.reach q = .ok place ∧ t.get? place = none ∧ HasMore t place [] u := by
  rw [makeFile, bind_eq_ok_iff] at h
  obtain ⟨reached, hreach, h⟩ := h
  cases hentry : t.get? reached with
  | some entry => simp [hentry, throw, throwThe, MonadExceptOf.throw] at h
  | none =>
    rw [hentry] at h
    obtain ⟨rfl, rfl⟩ := Prod.mk.inj (Except.ok.inj h)
    have hne : reached ≠ [] := by
      rintro rfl
      cases hentry
    refine ⟨hreach, hentry, rfl, fun other => ?_⟩
    exact t.get?_insert reached other _ hne (get?_dropLast_of_reach hstart hreach) (by simp [hentry])

theorem HasMore.fill (h : HasMore t place content u) (habsent : t.get? place = none)
    (hparent : t.get? place.dropLast = some .directory) (more : Bytes) : HasMore t place more (u.insert place (.file more)) := by
  have hne : place ≠ [] := by
    rintro rfl
    cases habsent
  have hfile : u.get? place = some (.file content) := by rw [h.get?, if_pos rfl]
  refine ⟨h.cwd, fun other => ?_⟩
  rw [u.get?_insert place other _ hne ((h.keepsDirs habsent).get? _ hparent) (by simp [hfile]), h.get?]
  split
  · rfl
  · rfl

/-! ### Writing -/

theorem writeText_eq (t : Tree) (p : Path) (text : Text) (encoding : Option Text) :
    t.writeText p text encoding =
      t.reach (t.temporary p) >>= fun _ => encoded text encoding >>= fun content => t.replaceFile p content := by
  rw [writeText, encoded]
  cases t.reach (t.temporary p) with
  | error fault => rfl
  | ok place =>
    cases Charset.usableName encoding with
    | error fault => rfl
    | ok name =>
      change (Charset.choose name >>= fun charset => _) = (Charset.choose name >>= fun charset => _) >>= _
      cases Charset.choose name with
      | error fault => rfl
      | ok charset =>
        simp only [bind, Except.bind]
        cases charset.encode text <;> rfl

theorem moveFile_of_hasMore {temporary : Place} (hstart : t.HasStart p) (habsent : t.get? temporary = none)
    (hmore : HasMore t temporary content u) (hparent : t.entry p.parent = .ok .directory) :
    (∃ fault, t.replaceFile p content = .error fault ∧ u.moveFile temporary p = .error fault) ∨
      ∃ after moved, t.replaceFile p content = .ok after ∧ u.moveFile temporary p = .ok moved ∧ SameView after moved := by
  have hreach : u.reach p = t.reach p := reach_eq_of_parent (hmore.keepsDirs habsent) hparent
  have hfile : u.get? temporary = some (.file content) := by rw [hmore.get?, if_pos rfl]
  rw [replaceFile, moveFile, writeFile, hreach]
  cases hplace : t.reach p with
  | error fault => exact .inl ⟨fault, rfl, rfl⟩
  | ok place =>
    have hdir : u.get? place = some .directory ↔ t.get? place = some .directory := by
      rw [hmore.get?]
      split
      · next htemporary => simp [htemporary, habsent]
      · rfl
    simp only [bind, Except.bind, hfile]
    split
    · exact .inl ⟨.os .busy, rfl, rfl⟩
    · by_cases hthere : t.get? place = some .directory
      · rw [hthere, hdir.2 hthere]
        exact .inl ⟨.os .isDirectory, rfl, rfl⟩
      · have hne : place ≠ [] := by
          rintro rfl
          exact hthere t.get?_root
        refine .inr ⟨t.insert place (.file content), (u.erase temporary).insert place (.file content), ?_, ?_, ?_⟩
        · split
          · next hget => exact absurd hget hthere
          · rfl
        · cases hget : u.get? place with
          | none => rfl
          | some entry =>
            cases entry with
            | file bytes => rfl
            | directory => exact absurd (hdir.1 hget) hthere
        · exact (hmore.sameView_erase habsent).insert hne (get?_dropLast_of_reach hstart hplace) fun hget => absurd hget hthere

theorem failure?_reach_temporary (h : IsSuffix suffix) :
    failure? (t.reach (t.temporaryNamed p suffix)) = failure? (t.reach (t.temporary p)) :=
  failure?_reach_temporaryNamed h isSuffix_replicate

/-- Once the temporary file is there, filling and moving it shows as replacing the destination at once, and taking it away as nothing at all. -/
theorem sameView_fillStaged {temporary : Place} (text : Text) (encoding : Option Text) (hstart : t.HasStart p)
    (habsent : t.get? temporary = none) (habove : t.get? temporary.dropLast = some .directory)
    (hmore : HasMore t temporary [] u) (hparent : t.entry p.parent = .ok .directory) :
    (∃ fault, (encoded text encoding >>= fun content => t.replaceFile p content) = .error fault ∧
      (u.finishStaged temporary p text encoding).2 = .error fault ∧
      SameView t (u.finishStaged temporary p text encoding).1) ∨
      ∃ after, (encoded text encoding >>= fun content => t.replaceFile p content) = .ok after ∧
        (u.finishStaged temporary p text encoding).2 = .ok () ∧
        SameView after (u.finishStaged temporary p text encoding).1 := by
  rw [finishStaged]
  cases hencoded : encoded text encoding with
  | error fault => exact .inl ⟨fault, rfl, rfl, hmore.sameView_erase habsent⟩
  | ok content =>
    have hfilled := hmore.fill habsent habove content
    dsimp only
    obtain ⟨fault, hreplace, hmove⟩ | ⟨after, moved, hreplace, hmove, hview⟩ :=
      moveFile_of_hasMore hstart habsent hfilled hparent
    · rw [hmove]
      exact .inl ⟨fault, hreplace, rfl, hfilled.sameView_erase habsent⟩
    · rw [hmove]
      exact .inr ⟨after, hreplace, rfl, hview⟩

theorem sameView_finishStaged {temporary : Place} (text : Text) (encoding : Option Text) (hstart : t.HasStart p)
    (hroom : failure? (t.reach (t.temporary p)) = none) (habsent : t.get? temporary = none)
    (habove : t.get? temporary.dropLast = some .directory) (hmore : HasMore t temporary [] u)
    (hparent : t.entry p.parent = .ok .directory) :
    (∃ fault, t.writeText p text encoding = .error fault ∧ (u.finishStaged temporary p text encoding).2 = .error fault ∧
      SameView t (u.finishStaged temporary p text encoding).1) ∨
      ∃ after, t.writeText p text encoding = .ok after ∧ (u.finishStaged temporary p text encoding).2 = .ok () ∧
        SameView after (u.finishStaged temporary p text encoding).1 := by
  obtain ⟨place, hplace⟩ : ∃ place, t.reach (t.temporary p) = .ok place := by
    cases h : t.reach (t.temporary p) with
    | ok place => exact ⟨place, rfl⟩
    | error fault => simp [h] at hroom
  have hwrite : t.writeText p text encoding = encoded text encoding >>= fun content => t.replaceFile p content := by
    rw [writeText_eq, hplace]
    rfl
  rw [hwrite]
  exact sameView_fillStaged text encoding hstart habsent habove hmore hparent

/-- Writing by way of a temporary file of any name that is not taken ends as writing at once does, and the tree shows the same. -/
theorem sameView_writeLinesStaged {lines : List Text} {encoding : Option Text} (hcwd : t.HasCwd) (hsuffix : IsSuffix suffix)
    (hfree : ∀ place, (t.makeDirs p.parent).1.reach ((t.makeDirs p.parent).1.temporaryNamed p suffix) = .ok place →
      (t.makeDirs p.parent).1.get? place = none) :
    (t.writeLinesStaged suffix p lines encoding).2 = (t.writeLines p lines encoding).2 ∧
      SameView (t.writeLines p lines encoding).1 (t.writeLinesStaged suffix p lines encoding).1 := by
  have hgrows : Grows t (t.makeDirs p.parent).1 := grows_of_makeAncestor (hcwd.hasStart p.parent) _
  rw [writeLinesStaged, writeLines, belowNewDirs]
  cases hdirs : t.makeDirs p.parent with
  | mk above outcome =>
    rw [hdirs] at hgrows hfree
    cases outcome with
    | error fault => exact ⟨rfl, .refl above⟩
    | ok done =>
      have habove (q : Path) : above.HasStart q := (hgrows.keepsDirs.hasCwd hcwd).hasStart q
      have hroom := failure?_reach_temporary (t := above) (p := p) hsuffix
      dsimp only
      cases hreach : above.reach (above.temporaryNamed p suffix) with
      | error fault =>
        rw [hreach, failure?_error, eq_comm, failure?_eq_some_iff] at hroom
        rw [writeText_eq, hroom, makeFile, hreach]
        exact ⟨rfl, .refl above⟩
      | ok temporary =>
        have habsent : above.get? temporary = none := hfree temporary hreach
        have hmake : above.makeFile (above.temporaryNamed p suffix) =
            .ok (temporary, above.insert temporary (.file [])) := by
          rw [makeFile, hreach]
          simp only [bind, Except.bind, habsent]
          rfl
        obtain ⟨-, -, hmore⟩ := hasMore_of_makeFile (habove _) hmake
        rw [hreach, failure?_ok, eq_comm] at hroom
        rw [hmake]
        have hparent : above.get? temporary.dropLast = some .directory := get?_dropLast_of_reach (habove _) hreach
        obtain ⟨fault, hwrite, houtcome, hview⟩ | ⟨after, hwrite, houtcome, hview⟩ :=
          sameView_finishStaged (textOfLines lines) encoding (habove p) hroom habsent hparent hmore
            (entry_of_makeDirs hcwd hdirs)
        · rw [hwrite]
          exact ⟨houtcome, hview⟩
        · rw [hwrite]
          exact ⟨houtcome, hview⟩

end Tree

end Quotation
