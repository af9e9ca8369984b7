import Quotation.Proofs.Resolution.Characters
import Quotation.Proofs.Text.Lines
import Quotation.Proofs.Tree.Growth
import Quotation.Resolution.Batch

/-!
# What is written is what was resolved

Right after a file of a run has been put in its place, reading it back there gives the lines that it was resolved to (`Placed.IsWritten`). The characters of these lines come from files read in the same charset, so the charset has them and none of them ends a line (`Charset.Safe`). One case is special: a file without changes is left alone where it would take its own place, and this is told by names only. Its destination may then lead through a directory that is not there.
-/

namespace Quotation

open Outcome

/-- Whether a character can stand in a file of the charset and ends no line, other than a line feed. -/
def Charset.Safe (charset : Charset) (c : Char) : Prop := charset.has c = true ∧ (Text.isBreak c = true → c = '\n')

/-- A file of a run has been written: its destination holds the lines that it was resolved to. -/
structure Placed.IsWritten (t : Tree) (encoding : Option Text) (charset : Charset) (file : Placed) : Prop where
  /-- No line holds a character that ends lines. -/
  unbroken : ∀ line ∈ file.resolved.lines, ∀ c ∈ line, Text.isBreak c = false
  /-- The place that the destination names holds the bytes of the source or the lines of the file, one after the other. -/
  stored : ∃ place content text, t.resolve file.destination = .ok place ∧ t.get? place = some (.file content) ∧
    charset.decode content = .ok text ∧ Text.lines (Text.unifyBreaks text) = file.resolved.lines ∧
    (file.resolved.changed = true → text = Text.join '\n' file.resolved.lines ++ ['\n']) ∧
    (file.resolved.changed = false → t.read file.resolved.source = .ok content)
  /-- Reading the destination gives the lines, provided that it can be reached. -/
  readable : ∀ place, t.reach file.destination = .ok place → t.readLines file.destination encoding = .ok file.resolved.lines
  /-- Only a file that was left alone may be out of reach. -/
  reachable : (∀ place, t.reach file.destination ≠ .ok place) →
    file.resolved.changed = false ∧ t.resolve file.destination = t.resolve file.resolved.source

variable {t u : Tree} {config : Config} {charset : Charset} {base file dest : Path} {resolved : Resolved}

/-! ### Characters -/

theorem supplies_safe (hnamed : Charset.NamedBy config.encoding charset) (t : Tree) : Supplies charset.Safe t config := by
  refine ⟨fun c hc => ?_, fun p lines hlines line hline c hc => ?_⟩
  · have hadded : Config.layoutCharacters.all (fun d => d.toNat < 0x80 && (!Text.isBreak d || d = '\n')) = true := by decide
    have hsafe := List.all_eq_true.1 hadded c hc
    simp only [Bool.and_eq_true, decide_eq_true_eq, Bool.or_eq_true, Bool.not_eq_true'] at hsafe
    refine ⟨charset.has_of_lt hsafe.1, fun hbreak => ?_⟩
    exact hsafe.2.resolve_left (by simp [hbreak])
  · obtain ⟨text, htext, rfl⟩ := Tree.readLines_eq_ok_iff.1 (Tree.citedLines_eq_ok_iff.1 hlines)
    obtain ⟨used, content, hused, -, hdecode⟩ := Tree.readText_eq_ok_iff.1 htext
    obtain rfl := hused.unique hnamed
    refine ⟨?_, fun hbreak => absurd hbreak (by simp [Text.not_isBreak_of_mem_lines _ line hline c hc])⟩
    obtain rfl | hmem := Text.mem_of_mem_unifyBreaks (Text.mem_of_mem_lines hline hc)
    · exact used.has_of_lt (by decide)
    · exact Charset.has_of_decode hdecode c hmem

theorem lines_textOfLines {lines : List Text} (hne : lines ≠ []) (h : ∀ line ∈ lines, ∀ c ∈ line, Text.isBreak c = false) :
    Text.lines (Text.unifyBreaks (Tree.textOfLines lines)) = lines := by
  have htext : Tree.textOfLines lines = Text.join '\n' lines ++ ['\n'] := by simp [Tree.textOfLines, hne]
  have hreturn : ∀ c ∈ Tree.textOfLines lines, c ≠ '\r' := by
    refine Tree.forall_mem_textOfLines (by decide) fun line hline c hc => ?_
    rintro rfl
    exact absurd (h line hline '\r' hc) (by decide)
  rw [Text.unifyBreaks_of_not_mem fun hmem => hreturn '\r' hmem rfl, htext, Text.lines_join hne h]

/-! ### One file -/

theorem isWritten_of_reach {place : Place} {content : Bytes} {text : Text} (hnamed : Charset.NamedBy config.encoding charset)
    (hunbroken : ∀ line ∈ resolved.lines, ∀ c ∈ line, Text.isBreak c = false) (hreach : t.reach dest = .ok place)
    (hget : t.get? place = some (.file content)) (hdecode : charset.decode content = .ok text)
    (hlines : Text.lines (Text.unifyBreaks text) = resolved.lines)
    (hchanged : resolved.changed = true → text = Text.join '\n' resolved.lines ++ ['\n'])
    (hkept : resolved.changed = false → t.read resolved.source = .ok content) :
    Placed.IsWritten t config.encoding charset ⟨resolved, dest⟩ := by
  have hread : t.read dest = .ok content := Tree.readAt_eq_ok_iff.2 ⟨place, hreach, hget⟩
  refine ⟨hunbroken, ⟨place, content, text, Tree.resolve_of_reach hreach, hget, hdecode, hlines, hchanged, hkept⟩, ?_, ?_⟩
  · intro _ _
    exact Tree.readLines_eq_ok_iff.2 ⟨text, Tree.readText_eq_ok_iff.2 ⟨charset, content, hnamed, hread, hdecode⟩, hlines⟩
  · exact fun hunreachable => absurd hreach (hunreachable place)

theorem isWritten_of_writeLines (hcwd : t.HasCwd) (hnamed : Charset.NamedBy config.encoding charset)
    (hchanged : resolved.changed = true) (hne : resolved.lines ≠ [])
    (hunbroken : ∀ line ∈ resolved.lines, ∀ c ∈ line, Text.isBreak c = false)
    (h : t.writeLines dest resolved.lines config.encoding = (u, .ok ())) :
    Placed.IsWritten u config.encoding charset ⟨resolved, dest⟩ := by
  obtain ⟨above, hgrows, hwrite⟩ := Tree.exists_of_belowNewDirs (hcwd.hasStart dest) h
  obtain ⟨used, content, hused, hencode, hfile⟩ := Tree.exists_of_writeText hwrite
  obtain rfl := hused.unique hnamed
  obtain ⟨place, hreach, hkeeps, hget⟩ := Tree.get?_of_writeFile (hgrows.keepsDirs.hasStart (hcwd.hasStart dest)) hfile
  refine isWritten_of_reach hnamed hunbroken (Tree.reach_of_keepsDirs hkeeps hreach) (by rw [hget, if_pos rfl])
    (Charset.decode_of_encode hencode) (lines_textOfLines hne hunbroken) ?_ ?_
  · intro _
    simp [Tree.textOfLines, hne]
  · intro hsame
    cases hchanged.symm.trans hsame

theorem exists_source {lines : List Text} {p : Path} (hnamed : Charset.NamedBy config.encoding charset)
    (h : t.citedLines config.encoding p = .ok lines) :
    ∃ origin content text, t.reach p = .ok origin ∧ t.get? origin = some (.file content) ∧
      charset.decode content = .ok text ∧ Text.lines (Text.unifyBreaks text) = lines := by
  obtain ⟨text, htext, hlines⟩ := Tree.readLines_eq_ok_iff.1 (Tree.citedLines_eq_ok_iff.1 h)
  obtain ⟨used, content, hused, hread, hdecode⟩ := Tree.readText_eq_ok_iff.1 htext
  obtain rfl := hused.unique hnamed
  obtain ⟨origin, hreach, hget⟩ := Tree.readAt_eq_ok_iff.1 hread
  exact ⟨origin, content, text, hreach, hget, hdecode, hlines⟩

theorem isWritten_of_copyFile (hcwd : t.HasCwd) (hnamed : Charset.NamedBy config.encoding charset)
    (hkept : resolved.changed = false) (hunbroken : ∀ line ∈ resolved.lines, ∀ c ∈ line, Text.isBreak c = false)
    (hsource : t.citedLines config.encoding resolved.source = .ok resolved.lines)
    (h : t.copyFile resolved.source dest = (u, .ok ())) : Placed.IsWritten u config.encoding charset ⟨resolved, dest⟩ := by
  obtain ⟨origin, content, text, hreach, hget, hdecode, hlines⟩ := exists_source hnamed hsource
  obtain ⟨above, hgrows, hcopy⟩ := Tree.exists_of_belowNewDirs (hcwd.hasStart dest) h
  obtain ⟨copied, bytes, hcopied, hbytes, hother, hwrite⟩ := Tree.exists_of_copyInto hcopy
  obtain rfl : origin = copied := Except.ok.inj ((Tree.reach_of_keepsDirs hgrows.keepsDirs hreach).symm.trans hcopied)
  obtain rfl : content = bytes := by simpa [hgrows.get? origin _ hget] using hbytes
  obtain ⟨place, hplace, hkeeps, hafter⟩ := Tree.get?_of_writeFile (hgrows.keepsDirs.hasStart (hcwd.hasStart dest)) hwrite
  have hapart : origin ≠ place := by
    rintro rfl
    exact hother hplace
  have hread : u.read resolved.source = .ok content :=
    Tree.readAt_eq_ok_iff.2 ⟨origin, Tree.reach_of_keepsDirs hkeeps hcopied, by rw [hafter, if_neg hapart, hbytes]⟩
  refine isWritten_of_reach hnamed hunbroken (Tree.reach_of_keepsDirs hkeeps hplace) (by rw [hafter, if_pos rfl]) hdecode
    hlines ?_ fun _ => hread
  intro hchanged
  cases hchanged.symm.trans hkept

/-- A file that names its own source as its destination has been written all along. -/
theorem isWritten_of_resolve {place : Place} (hnamed : Charset.NamedBy config.encoding charset)
    (hkept : resolved.changed = false) (hunbroken : ∀ line ∈ resolved.lines, ∀ c ∈ line, Text.isBreak c = false)
    (hsource : t.citedLines config.encoding resolved.source = .ok resolved.lines) (hdest : t.resolve dest = .ok place)
    (hsame : t.resolve resolved.source = .ok place) : Placed.IsWritten t config.encoding charset ⟨resolved, dest⟩ := by
  obtain ⟨origin, content, text, hreach, hget, hdecode, hlines⟩ := exists_source hnamed hsource
  obtain rfl : origin = place := Except.ok.inj ((Tree.resolve_of_reach hreach).symm.trans hsame)
  have hread : t.read resolved.source = .ok content := Tree.readAt_eq_ok_iff.2 ⟨origin, hreach, hget⟩
  have hchanged : resolved.changed = true → text = Text.join '\n' resolved.lines ++ ['\n'] := fun hchanged => by
    cases hchanged.symm.trans hkept
  refine ⟨hunbroken, ⟨origin, content, text, hdest, hget, hdecode, hlines, hchanged, fun _ => hread⟩, ?_, ?_⟩
  · intro reached hreached
    obtain rfl : reached = origin := Except.ok.inj ((Tree.resolve_of_reach hreached).symm.trans hdest)
    exact (isWritten_of_reach hnamed hunbroken hreached hget hdecode hlines hchanged fun _ => hread).readable reached hreached
  · exact fun _ => ⟨hkept, hdest.trans hsame.symm⟩

/-! ### One step of a run -/

theorem isWritten_of_place (hcwd : t.HasCwd) (hnamed : Charset.NamedBy config.encoding charset)
    (hresolve : (resolveFile t config base file).outcome = .ok resolved) (h : (place t config dest resolved).outcome = .ok ()) :
    Placed.IsWritten (place t config dest resolved).tree config.encoding charset ⟨resolved, dest⟩ := by
  obtain ⟨-, before, hbefore, hlines, hne, hsafe⟩ := exists_of_resolveFile (supplies_safe hnamed t) hresolve
  have hunbroken : ∀ line ∈ resolved.lines, ∀ c ∈ line, Text.isBreak c = false := by
    intro line hline c hc
    obtain ⟨⟨-, hbreak⟩, hfeed⟩ := hsafe line hline c hc
    by_contra hc
    exact hfeed (hbreak (by simpa using hc))
  rw [place] at h ⊢
  cases hchanged : resolved.changed with
  | true =>
    rw [hchanged] at h
    have hwritten : t.writeLines dest resolved.lines config.encoding =
        ((t.writeLines dest resolved.lines config.encoding).1, .ok ()) := Prod.ext rfl (mapError_eq_ok_iff.1 h)
    exact isWritten_of_writeLines hcwd hnamed hchanged (hne hchanged) hunbroken hwritten
  | false =>
    have hsource : t.citedLines config.encoding resolved.source = .ok resolved.lines := by rw [hlines hchanged, hbefore]
    rw [hchanged] at h
    cases hdest : t.resolve dest with
    | error fault => simp [hdest] at h
    | ok target =>
      cases horigin : t.resolve resolved.source with
      | error fault => simp [hdest, horigin] at h
      | ok origin =>
        simp only [hdest, horigin, Bool.false_eq_true, if_false] at h ⊢
        by_cases hsame : target = origin
        · rw [if_pos hsame]
          exact isWritten_of_resolve hnamed hchanged hunbroken hsource hdest (hsame ▸ horigin)
        · rw [if_neg hsame] at h ⊢
          have hcopied : t.copyFile resolved.source dest = ((t.copyFile resolved.source dest).1, .ok ()) :=
            Prod.ext rfl (mapError_eq_ok_iff.1 h)
          exact isWritten_of_copyFile hcwd hnamed hchanged hunbroken hsource hcopied

/-- Putting a resolved file in its place does not fail for the bytes of a text. -/
theorem ends_place (hnamed : Charset.NamedBy config.encoding charset)
    (hresolve : (resolveFile t config base file).outcome = .ok resolved) :
    Ends (fun _ => True) Failure.NotText (place t config dest resolved).outcome := by
  obtain ⟨-, before, -, -, -, hsafe⟩ := exists_of_resolveFile (supplies_safe hnamed t) hresolve
  have hwrite := t.ends_writeLines dest config.encoding hnamed fun line hline c hc => (hsafe line hline c hc).1.1
  have hcopy := t.ends_copyFile dest resolved.source
  have hdest := t.ends_resolve dest
  have hsource := t.ends_resolve resolved.source
  rw [place]
  split
  · exact hwrite.mapError fun _ hfault => hfault.failure
  · split
    · split
      · exact trivial
      · exact hcopy.mapError fun _ hfault => hfault.failure
    · next fault hfault => exact (hdest.of_error hfault).failure
    · next fault hfault _ => exact (hsource.of_error hfault).failure

theorem keepsDirs_of_place (hcwd : t.HasCwd) : Tree.KeepsDirs t (place t config dest resolved).tree := by
  have hwrite : Tree.KeepsDirs t (t.writeLines dest resolved.lines config.encoding).1 := by
    refine Tree.keepsDirs_of_belowNewDirs (hcwd.hasStart dest) fun above after hgrows hwrite => ?_
    obtain ⟨used, content, -, -, hfile⟩ := Tree.exists_of_writeText hwrite
    obtain ⟨_, -, hkeeps, -⟩ := Tree.get?_of_writeFile (hgrows.keepsDirs.hasStart (hcwd.hasStart dest)) hfile
    exact hkeeps
  have hcopy : Tree.KeepsDirs t (t.copyFile resolved.source dest).1 := by
    refine Tree.keepsDirs_of_belowNewDirs (hcwd.hasStart dest) fun above after hgrows hcopy => ?_
    obtain ⟨origin, content, -, -, -, hfile⟩ := Tree.exists_of_copyInto hcopy
    obtain ⟨_, -, hkeeps, -⟩ := Tree.get?_of_writeFile (hgrows.keepsDirs.hasStart (hcwd.hasStart dest)) hfile
    exact hkeeps
  rw [place]
  split
  · exact hwrite
  · split
    · split
      · exact Tree.KeepsDirs.refl t
      · exact hcopy
    · exact Tree.KeepsDirs.refl t
    · exact Tree.KeepsDirs.refl t

theorem isWritten_of_runFile {placed : Placed} (hcwd : t.HasCwd) (hnamed : Charset.NamedBy config.encoding charset)
    (h : (runFile config base t file).outcome = .ok (.placed placed)) :
    Placed.IsWritten (runFile config base t file).tree config.encoding charset placed := by
  rw [runFile] at h ⊢
  cases hresolve : (resolveFile t config base file).outcome with
  | error failure =>
    cases failure with
    | citation complaint => cases hgoing : config.keepGoing <;> simp [hresolve, hgoing] at h
    | fault fault => simp [hresolve] at h
  | ok resolved =>
    rw [hresolve] at h
    dsimp only at h ⊢
    cases hplace : (place t config (destination base resolved.source (config.outputDir.getD base)) resolved).outcome with
    | error failure => simp [hplace] at h
    | ok done =>
      rw [hplace] at h
      obtain rfl := FileResult.placed.inj (Except.ok.inj h)
      exact isWritten_of_place hcwd hnamed hresolve hplace

theorem runFile_ne_encoding (hnamed : Charset.NamedBy config.encoding charset) (t : Tree) (e : Charset.EncodeError) :
    (runFile config base t file).outcome ≠ .error (.fault (.encoding e)) := by
  intro h
  rw [runFile] at h
  cases hresolve : (resolveFile t config base file).outcome with
  | error failure =>
    cases failure with
    | citation complaint => cases hgoing : config.keepGoing <;> simp [hresolve, hgoing] at h
    | fault fault =>
      obtain rfl : fault = .encoding e := by simpa [hresolve] using h
      exact resolveFile_ne_encoding (supplies_safe hnamed t) base file e hresolve
  | ok resolved =>
    rw [hresolve] at h
    dsimp only at h
    split at h
    · next failure hplace =>
      obtain rfl := Except.error.inj h
      exact (ends_place hnamed hresolve).of_error hplace
    · cases h

theorem keepsDirs_of_runFile (hcwd : t.HasCwd) : Tree.KeepsDirs t (runFile config base t file).tree := by
  rw [runFile]
  split
  · split <;> exact Tree.KeepsDirs.refl t
  · exact Tree.KeepsDirs.refl t
  · dsimp only
    split <;> exact keepsDirs_of_place hcwd

/-! ### A whole run -/

theorem keepsDirs_of_resolveFiles (files : List Path) (hcwd : t.HasCwd) :
    Tree.KeepsDirs t (resolveFiles config base t files).tree := by
  induction files generalizing t with
  | nil => exact Tree.KeepsDirs.refl t
  | cons file rest ih =>
    have hfirst : Tree.KeepsDirs t (runFile config base t file).tree := keepsDirs_of_runFile hcwd
    rw [resolveFiles]
    dsimp only
    split
    · exact hfirst
    · exact hfirst.trans (ih (hfirst.hasCwd hcwd))

theorem resolveFiles_ne_encoding (hnamed : Charset.NamedBy config.encoding charset) (t : Tree) (files : List Path)
    (e : Charset.EncodeError) : (resolveFiles config base t files).outcome ≠ .error (.fault (.encoding e)) := by
  induction files generalizing t with
  | nil => simp [resolveFiles]
  | cons file rest ih =>
    rw [resolveFiles]
    dsimp only
    split
    · next failure hfirst =>
      intro h
      obtain rfl := Except.error.inj h
      exact runFile_ne_encoding hnamed t e hfirst
    · next result _ =>
      intro h
      have hrest := ih (runFile config base t file).tree
      cases houtcome : (resolveFiles config base (runFile config base t file).tree rest).outcome with
      | ok run => simp [houtcome, Except.map] at h
      | error failure =>
        obtain rfl : failure = .fault (.encoding e) := by simpa [houtcome, Except.map] using h
        exact hrest houtcome

/-- Going on with more files where a run has ended. -/
def Batch.goOn (config : Config) (base : Path) (first : Batch Run) (later : List Path) : Batch Run :=
  match first.outcome with
  | .error failure => ⟨first.tree, first.log, .error failure⟩
  | .ok run =>
    let others := resolveFiles config base first.tree later
    ⟨others.tree, first.log ++ others.log, others.outcome.map fun rest => ⟨run.results ++ rest.results⟩⟩

/-- A run can be cut behind any of its files, so each file is the last one of some run. -/
theorem resolveFiles_append (t : Tree) (files later : List Path) :
    resolveFiles config base t (files ++ later) = (resolveFiles config base t files).goOn config base later := by
  induction files generalizing t with
  | nil =>
    rw [List.nil_append, resolveFiles, Batch.goOn]
    obtain ⟨tree, log, outcome⟩ := resolveFiles config base t later
    cases outcome <;> rfl
  | cons file rest ih =>
    rw [List.cons_append, resolveFiles, resolveFiles]
    dsimp only
    cases hfirst : (runFile config base t file).outcome with
    | error failure => rfl
    | ok result =>
      rw [ih, Batch.goOn, Batch.goOn]
      cases hrest : (resolveFiles config base (runFile config base t file).tree rest).outcome with
      | error failure => simp [Except.map]
      | ok run =>
        cases hlater : (resolveFiles config base (resolveFiles config base (runFile config base t file).tree rest).tree
          later).outcome <;> simp [hlater, Except.map]

theorem exists_of_resolveFiles_concat {files : List Path} {run : Run}
    (h : (resolveFiles config base t (files ++ [file])).outcome = .ok run) :
    ∃ earlier result, run.results = earlier ++ [result] ∧
      (runFile config base (resolveFiles config base t files).tree file).outcome = .ok result ∧
      (resolveFiles config base t (files ++ [file])).tree =
        (runFile config base (resolveFiles config base t files).tree file).tree := by
  rw [resolveFiles_append, Batch.goOn] at h ⊢
  cases hbefore : (resolveFiles config base t files).outcome with
  | error failure => simp [hbefore] at h
  | ok before =>
    rw [hbefore] at h
    obtain ⟨rest, hrest, rfl⟩ := map_eq_ok_iff.1 h
    rw [resolveFiles] at hrest ⊢
    dsimp only at hrest ⊢
    cases hlast : (runFile config base (resolveFiles config base t files).tree file).outcome with
    | error failure => simp [hlast] at hrest
    | ok result =>
      rw [hlast] at hrest
      obtain rfl := Except.ok.inj hrest
      exact ⟨before.results, result, rfl, rfl, rfl⟩

theorem resolveFiles_concat_of_ok {files : List Path} {run : Run} {result : FileResult}
    (hbefore : (resolveFiles config base t files).outcome = .ok run)
    (hlast : (runFile config base (resolveFiles config base t files).tree file).outcome = .ok result) :
    (resolveFiles config base t (files ++ [file])).outcome = .ok ⟨run.results ++ [result]⟩ ∧
      (resolveFiles config base t (files ++ [file])).tree =
        (runFile config base (resolveFiles config base t files).tree file).tree := by
  rw [resolveFiles_append, Batch.goOn, hbefore]
  dsimp only
  rw [resolveFiles, hlast]
  exact ⟨rfl, rfl⟩

/-- No run fails for a character that the charset lacks, and the file that a run has placed last has been written. -/
theorem resolveFiles_writes_what_was_resolved (hcwd : t.HasCwd) (hnamed : Charset.NamedBy config.encoding charset)
    (base : Path) (files : List Path) (file : Path) :
    (∀ e, (resolveFiles config base t (files ++ [file])).outcome ≠ .error (.fault (.encoding e))) ∧
      ∀ earlier placed, (resolveFiles config base t (files ++ [file])).outcome = .ok ⟨earlier ++ [.placed placed]⟩ →
        Placed.IsWritten (resolveFiles config base t (files ++ [file])).tree config.encoding charset placed := by
  refine ⟨resolveFiles_ne_encoding hnamed t (files ++ [file]), fun earlier placed h => ?_⟩
  obtain ⟨others, last, hresults, hlast, htree⟩ := exists_of_resolveFiles_concat h
  obtain ⟨-, rfl⟩ := List.append_inj' hresults.symm rfl |>.imp_right fun heq => List.singleton_inj.1 heq
  rw [htree]
  exact isWritten_of_runFile ((keepsDirs_of_resolveFiles files hcwd).hasCwd hcwd) hnamed hlast

def citingTree : Tree :=
  ⟨[], .file "d.md".toList (Charset.Utf8.encode "a [e]\n".toList) (.file "e".toList (Charset.Utf8.encode "b\n".toList) .empty)⟩

theorem isWritten_in_output_directory :
    Placed.IsWritten
      (resolveFiles { outputDir := some (Path.ofText "o".toList) } Path.here citingTree [Path.ofText "d.md".toList]).tree
      (some "utf-8".toList) .utf8
      ⟨⟨Path.ofText "d.md".toList, ["a b".toList], true, 1, []⟩, Path.ofText "o/d.md".toList⟩ := by
  have hcwd : citingTree.HasCwd := rfl
  have hnamed : Charset.NamedBy ({ outputDir := some (Path.ofText "o".toList) } : Config).encoding .utf8 := Charset.namedBy_utf8
  have hrun := resolveFiles_writes_what_was_resolved hcwd hnamed Path.here [] (Path.ofText "d.md".toList)
  exact hrun.2 [] _ (by decide +kernel)

/-- Left alone, a file may have a destination that leads through a directory that is not there. -/
theorem exists_placed_out_of_reach :
    ∃ (t : Tree) (config : Config) (base file : Path) (placed : Placed), t.HasCwd ∧ Charset.NamedBy config.encoding .utf8 ∧
      (resolveFiles config base t [file]).outcome = .ok ⟨[.placed placed]⟩ ∧
      (resolveFiles config base t [file]).tree.readLines placed.destination config.encoding = .error (.os .notFound) := by
  refine ⟨⟨[], .file "d.md".toList (Charset.Utf8.encode "a\n".toList) .empty⟩,
    { outputDir := some (Path.ofText "missing/..".toList) }, Path.here, Path.ofText "d.md".toList,
    ⟨⟨Path.ofText "d.md".toList, ["a".toList], false, 0, []⟩, Path.ofText "missing/../d.md".toList⟩, rfl,
    Charset.namedBy_utf8, ?_, ?_⟩
  · decide +kernel
  · decide +kernel

end Quotation
