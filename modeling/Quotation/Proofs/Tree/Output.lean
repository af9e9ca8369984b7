import Quotation.Proofs.Tree.Growth

/-!
# What writing changes

Putting files at paths leaves a tree that differs from the one before in two ways only: directories are new where a path above one of theirs leads, and a file stands where one of theirs leads, with the content it is to hold (`DiffersBy`). This is so for each operation however it ends, and differences of this kind add up (`DiffersBy.trans`).
-/

namespace Quotation

theorem Path.isPrefix_foldl_step {names : List Text} (h : Path.up ∉ names) (place : Place) :
    place <+: names.foldl step place := by
  induction names generalizing place with
  | nil => exact List.prefix_rfl
  | cons name rest ih =>
    obtain ⟨hname, hrest⟩ : Path.up ≠ name ∧ Path.up ∉ rest := by simpa using h
    refine List.IsPrefix.trans ?_ (ih hrest (step place name))
    rw [step, if_neg (Ne.symm hname)]
    split
    · exact List.prefix_rfl
    · exact List.prefix_append place [name]

theorem Path.upTo_parent {p : Path} {count : Nat} (h : count < p.parts.length) : p.parent.upTo count = p.upTo count := by
  have htake : min count (p.parts.length - 1) = count := by omega
  rw [upTo, upTo, parent, List.dropLast_eq_take, List.take_take, htake]

/-- Files that are to be put at paths: at which ones, and what they may hold there. -/
structure Puts where
  dest : Path → Prop
  holds : Path → Bytes → Prop

namespace Tree

/-- How a place may differ once files have been put at paths. -/
inductive Change (puts : Puts) (before after : Tree) (place : Place) : Prop where
  | same (h : after.get? place = before.get? place)
  | directory (p : Path) (count : Nat) (dest : puts.dest p) (above : count < p.parts.length)
      (reach : after.reach (p.upTo count) = .ok place) (absent : before.get? place = none)
      (new : after.get? place = some .directory)
  | file (p : Path) (content : Bytes) (holds : puts.holds p content) (reach : after.reach p = .ok place)
      (free : before.get? place ≠ some .directory) (new : after.get? place = some (.file content))

/-- The trees differ by nothing but files put at paths and the directories above them. -/
structure DiffersBy (puts : Puts) (before after : Tree) : Prop where
  cwd : after.cwd = before.cwd
  change : ∀ place, Change puts before after place

variable {puts : Puts} {t u v : Tree} {p : Path} {place : Place} {content : Bytes} {encoding : Option Text}

theorem DiffersBy.refl (puts : Puts) (t : Tree) : DiffersBy puts t t := ⟨rfl, fun _ => .same rfl⟩

theorem DiffersBy.keepsDirs (h : DiffersBy puts t u) : KeepsDirs t u := by
  refine ⟨h.cwd, fun place hplace => ?_⟩
  cases h.change place with
  | same hsame => rw [hsame, hplace]
  | directory p count _ _ _ habsent _ => cases habsent.symm.trans hplace
  | file p content _ _ hfree _ => exact absurd hplace hfree

theorem DiffersBy.trans (h : DiffersBy puts t u) (h' : DiffersBy puts u v) : DiffersBy puts t v := by
  refine ⟨h'.cwd.trans h.cwd, fun place => ?_⟩
  have hkeeps := h'.keepsDirs
  cases h.change place with
  | same hsame =>
    cases h'.change place with
    | same hsame' => exact .same (hsame'.trans hsame)
    | directory p count hdest habove hreach habsent hnew => exact .directory p count hdest habove hreach (hsame ▸ habsent) hnew
    | file p content hholds hreach hfree hnew => exact .file p content hholds hreach (hsame ▸ hfree) hnew
  | directory p count hdest habove hreach habsent hnew =>
    exact .directory p count hdest habove (reach_of_keepsDirs hkeeps hreach) habsent (hkeeps.get? place hnew)
  | file p content hholds hreach hfree hnew =>
    cases h'.change place with
    | same hsame' => exact .file p content hholds (reach_of_keepsDirs hkeeps hreach) hfree (hsame'.trans hnew)
    | directory p' count _ _ _ habsent _ => cases habsent.symm.trans hnew
    | file p' content' hholds' hreach' _ hnew' => exact .file p' content' hholds' hreach' hfree hnew'

theorem DiffersBy.mono {more : Puts} (h : DiffersBy puts t u) (hdest : ∀ p, puts.dest p → more.dest p)
    (hholds : ∀ p content, puts.holds p content → more.holds p content) : DiffersBy more t u := by
  refine ⟨h.cwd, fun place => ?_⟩
  cases h.change place with
  | same hsame => exact .same hsame
  | directory p count hp habove hreach habsent hnew => exact .directory p count (hdest p hp) habove hreach habsent hnew
  | file p content hp hreach hfree hnew => exact .file p content (hholds p content hp) hreach hfree hnew

theorem DiffersBy.file_iff (h : DiffersBy puts t u) (helsewhere : ∀ p content, puts.holds p content → u.reach p ≠ .ok place)
    (content : Bytes) : u.get? place = some (.file content) ↔ t.get? place = some (.file content) := by
  cases h.change place with
  | same hsame => rw [hsame]
  | directory p count _ _ _ habsent hnew => simp [habsent, hnew]
  | file p bytes hholds hreach _ _ => exact absurd hreach (helsewhere p bytes hholds)

/-- A path above another one leads to a directory above it, unless double dots follow. -/
theorem isPrefix_of_reach_upTo {count : Nat} (h : t.reach (p.upTo count) = .ok place) (hup : Path.up ∉ p.parts.drop count) :
    place <+: p.normalize t.cwd := by
  have hsplit : p.normalize t.cwd = (p.parts.drop count).foldl Path.step ((p.upTo count).normalize t.cwd) := by
    rw [Path.normalize, Path.normalize, Path.upTo, ← List.foldl_append, List.take_append_drop]
  rw [hsplit, normalize_of_reach h]
  exact Path.isPrefix_foldl_step hup place

/-! ### Directories -/

theorem differsBy_of_makeDir {count : Nat} (hstart : t.HasStart p) (hdest : puts.dest p) (habove : count < p.parts.length)
    (h : t.makeDir (p.upTo count) = .ok u) : DiffersBy puts t u := by
  obtain ⟨place, hreach, habsent, hkeeps, hget⟩ := get?_of_makeDir (p := p.upTo count) hstart h
  refine ⟨hkeeps.cwd, fun other => ?_⟩
  by_cases hother : other = place
  · subst hother
    exact .directory p count hdest habove (reach_of_keepsDirs hkeeps hreach) habsent (by rw [hget, if_pos rfl])
  · exact .same (by rw [hget, if_neg hother])

theorem differsBy_makeAncestor {count : Nat} (hstart : t.HasStart p) (hdest : puts.dest p) (habove : count < p.parts.length) :
    DiffersBy puts t (t.makeAncestor p.parent count).1 := by
  induction count with
  | zero => exact .refl puts t
  | succ count ih =>
    have hdir : (⟨p.parent.anchor, p.parent.parts.take (count + 1)⟩ : Path) = p.upTo (count + 1) := Path.upTo_parent habove
    have hless := ih (by omega)
    rw [makeAncestor, hdir]
    split
    · next made hmade => exact differsBy_of_makeDir hstart hdest habove hmade
    · split
      · next above fault hmake =>
        rw [hmake] at hless
        exact hless
      · next above hmake =>
        rw [hmake] at hless
        split
        · next made hmade => exact hless.trans (differsBy_of_makeDir (hless.keepsDirs.hasStart hstart) hdest habove hmade)
        · exact hless
        · exact hless
    · exact .refl puts t

theorem differsBy_makeDirs (hstart : t.HasStart p) (hdest : puts.dest p) : DiffersBy puts t (t.makeDirs p.parent).1 := by
  rw [makeDirs]
  have hlength : p.parent.parts.length = p.parts.length - 1 := List.length_dropLast
  cases hparts : p.parts with
  | nil =>
    rw [hlength, hparts]
    exact .refl puts t
  | cons name rest => exact differsBy_makeAncestor hstart hdest (by rw [hlength, hparts]; simp)

/-! ### Files -/

theorem differsBy_of_writeFile (hstart : t.HasStart p) (hholds : puts.holds p content) (h : t.writeFile p content = .ok u) :
    DiffersBy puts t u := by
  obtain ⟨place, hreach, hkeeps, hget⟩ := get?_of_writeFile hstart h
  refine ⟨hkeeps.cwd, fun other => ?_⟩
  by_cases hother : other = place
  · subst hother
    have hfile : u.get? other = some (.file content) := by rw [hget, if_pos rfl]
    refine .file p content hholds (reach_of_keepsDirs hkeeps hreach) ?_ hfile
    intro hdir
    cases hfile.symm.trans (hkeeps.get? other hdir)
  · exact .same (by rw [hget, if_neg hother])

theorem differsBy_belowNewDirs {finish : Tree → Except Fault Tree} (hstart : t.HasStart p) (hdest : puts.dest p)
    (h : ∀ above after, Grows t above → finish above = .ok after → DiffersBy puts above after) :
    DiffersBy puts t (t.belowNewDirs p finish).1 := by
  have hdirs := differsBy_makeDirs hstart hdest
  have hgrows : Grows t (t.makeDirs p.parent).1 := grows_of_makeAncestor (p := p.parent) hstart _
  rw [belowNewDirs]
  split
  · next above fault habove =>
    rw [habove] at hdirs
    exact hdirs
  · next above habove =>
    rw [habove] at hdirs hgrows
    split
    · next after hafter => exact hdirs.trans (h above after hgrows hafter)
    · exact hdirs

/-! ### Lines of text -/

theorem textOfLines_eq_flatMap (lines : List Text) : textOfLines lines = lines.flatMap (· ++ ['\n']) := by
  cases lines with
  | nil => rfl
  | cons line rest =>
    change Text.join '\n' (line :: rest) ++ ['\n'] = _
    induction rest generalizing line with
    | nil => simp [Text.join]
    | cons next rest ih => rw [Text.join, List.append_assoc, List.cons_append, ih next, List.flatMap_cons]; simp

/-- The content is that of a text file with these lines. -/
def IsTextOf (encoding : Option Text) (lines : List Text) (content : Bytes) : Prop :=
  ∃ charset, Charset.NamedBy encoding charset ∧ charset.encode (lines.flatMap (· ++ ['\n'])) = .ok content

theorem exists_isTextOf_of_writeText {lines : List Text} (h : t.writeText p (textOfLines lines) encoding = .ok u) :
    ∃ content, IsTextOf encoding lines content ∧ t.writeFile p content = .ok u := by
  obtain ⟨charset, content, hnamed, hencode, hfile⟩ := exists_of_writeText h
  exact ⟨content, ⟨charset, hnamed, textOfLines_eq_flatMap lines ▸ hencode⟩, hfile⟩

/-- Writing lines puts their text where the path leads, in the charset that is asked for. -/
theorem differsBy_writeLines {lines : List Text} (hstart : t.HasStart p) (hdest : puts.dest p)
    (hholds : ∀ content, IsTextOf encoding lines content → puts.holds p content) :
    DiffersBy puts t (t.writeLines p lines encoding).1 := by
  refine differsBy_belowNewDirs hstart hdest fun above after hgrows hwrite => ?_
  obtain ⟨content, htext, hfile⟩ := exists_isTextOf_of_writeText hwrite
  exact differsBy_of_writeFile (hgrows.keepsDirs.hasStart hstart) (hholds content htext) hfile

theorem get?_of_writeLines {lines : List Text} {old : Bytes} (h : t.entry p = .ok (.file old))
    (hwrite : t.writeLines p lines encoding = (u, .ok ())) :
    ∃ content, IsTextOf encoding lines content ∧ u.cwd = t.cwd ∧
      ∀ other, u.get? other = if other = p.normalize t.cwd then some (.file content) else t.get? other := by
  have hstart := hasStart_of_entry h
  obtain ⟨above, hgrows, hfinish⟩ := exists_of_belowNewDirs hstart hwrite
  obtain ⟨content, htext, hfile⟩ := exists_isTextOf_of_writeText hfinish
  obtain ⟨place, hreach, hkeeps, hget⟩ := get?_of_writeFile (hgrows.keepsDirs.hasStart hstart) hfile
  have hplace : p.normalize t.cwd = place := by
    rw [← hgrows.cwd]
    exact normalize_of_reach hreach
  refine ⟨content, htext, hkeeps.cwd.trans hgrows.cwd, fun other => ?_⟩
  rw [hplace]
  by_cases hother : other = place
  · rw [hget, if_pos hother, if_pos hother]
  · rw [if_neg hother]
    have hdiffers : DiffersBy ⟨(· = p), fun q _ => q = p⟩ t (t.writeLines p lines encoding).1 :=
      differsBy_writeLines hstart rfl fun _ _ => rfl
    rw [hwrite] at hdiffers
    cases hdiffers.change other with
    | same hsame => exact hsame
    | directory q count hq _ hreach' habsent _ =>
      obtain rfl : q = p := hq
      obtain ⟨dir, hwalk, hsome⟩ := exists_walk_take h count
      obtain rfl : other = dir := eq_of_reach_upTo hdiffers.keepsDirs hwalk hreach'
      simp [habsent] at hsome
    | file q content hq hreach' _ _ =>
      obtain rfl : q = p := hq
      refine absurd ?_ hother
      rw [← hplace, ← hdiffers.cwd]
      exact (normalize_of_reach hreach').symm

theorem differsBy_copyFile {source : Path} (hstart : t.HasStart p) (hdest : puts.dest p) (hread : t.read source = .ok content)
    (hholds : puts.holds p content) : DiffersBy puts t (t.copyFile source p).1 := by
  refine differsBy_belowNewDirs hstart hdest fun above after hgrows hcopy => ?_
  obtain ⟨origin, hreach, hget⟩ := readAt_eq_ok_iff.1 hread
  obtain ⟨copied, bytes, hcopied, hbytes, -, hwrite⟩ := exists_of_copyInto hcopy
  obtain rfl : origin = copied := Except.ok.inj ((reach_of_keepsDirs hgrows.keepsDirs hreach).symm.trans hcopied)
  obtain rfl : content = bytes := by simpa [hgrows.get? origin _ hget] using hbytes
  exact differsBy_of_writeFile (hgrows.keepsDirs.hasStart hstart) hholds hwrite

end Tree

end Quotation
