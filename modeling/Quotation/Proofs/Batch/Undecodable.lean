import Quotation.Proofs.Batch.Independence
import Quotation.Proofs.Check.Findings
import Quotation.Proofs.Citation.Spelling
import Quotation.Proofs.Resolution.Raised

/-!
# Files that do not decode

The bytes of a file may stand for no text in the charset that files are read in. If such a file takes part in resolving another one, be it that file itself or one that is cited at any depth (`TakesPart`), then resolving complains of it, a run that goes on records the complaint and turns to the next file, and checking reports an issue. The bytes of a file end nothing else, with one exception: where UTF-16 asks for a byte order mark and there is none, the fault gets through everywhere (`reportsUndecodable`, `exists_unmarked_fault`).
-/

namespace Quotation

open Outcome

def Tree.Undecodable (t : Tree) (charset : Charset) (p : Path) (flaw : Charset.DecodeFailure) : Prop :=
  ∃ content, t.read p = .ok content ∧ charset.decode content = .error flaw

/-- Resolving a file reads `p`: the file itself, or what a marker that is met leads to. -/
inductive TakesPart (t : Tree) (config : Config) (base file : Path) : Path → Prop where
  | source : TakesPart t config base file (base.within file)
  | cited {ctx : Context} {body : Text} {c : Citation} {target : Path} (met : MeetsIn t config base (base.within file) ctx body)
      (found : Reading.ofBody t ctx body = .ok (.found c target)) : TakesPart t config base file target

inductive Check.TakesPart (t : Tree) (config : Config) (base file : Path) : Path → Prop where
  | source : TakesPart t config base file (base.within file)
  | cited {lines : List Text} {marker : Nat × Text} {c : Citation} {target : Path}
      (lines_eq : t.citedLines config.encoding (base.within file) = .ok lines) (mem : marker ∈ Segment.numberedMarkers 1 lines)
      (found : Reading.ofBody t { baseDir := base, citingFile := base.within file } marker.2 = .ok (.found c target)) :
      TakesPart t config base file target

/-- What bytes that do not decode make reading the file fail with. -/
def Charset.DecodeFailure.failure (p : Path) : DecodeFailure → Failure
  | .invalid e => (CitationError.unreadable p (.decoding e)).failure
  | .noByteOrderMark => .fault .noByteOrderMark

variable {t u : Tree} {config : Config} {charset : Charset} {base file p : Path} {files : List Path} {fault : Fault}
  {flaw : Charset.DecodeFailure} {failure : Failure} {complaint : Complaint}

/-! ### Reading -/

namespace Tree

theorem citedLines_of_undecodable {encoding : Option Text} (hnamed : Charset.NamedBy encoding charset)
    (h : t.Undecodable charset p flaw) : t.citedLines encoding p = .error (flaw.failure p) := by
  obtain ⟨name, hname, hchoose⟩ := hnamed
  obtain ⟨content, hread, hdecode⟩ := h
  simp only [citedLines, readLines, readText, hname, hread, hchoose, hdecode, bind, Except.bind]
  cases flaw <;> rfl

/-- Reading ends a run because there is nothing to read, or because the byte order mark is missing. -/
theorem cause_of_citedLines_fault {encoding : Option Text} (hnamed : Charset.NamedBy encoding charset)
    (h : t.citedLines encoding p = .error (.fault fault)) :
    t.read p = .error fault ∨ fault = .noByteOrderMark ∧ t.Undecodable charset p .noByteOrderMark := by
  cases hread : t.read p with
  | error cause =>
    obtain ⟨name, hname, -⟩ := hnamed
    simp only [citedLines, readLines, readText, hname, hread, bind, Except.bind, Except.map, Except.mapError] at h
    cases cause <;> simp_all [CitationError.failure]
  | ok content =>
    right
    cases hdecode : charset.decode content with
    | ok text =>
      have hlines := citedLines_eq_ok_iff.2 (readLines_eq_ok_iff.2
        ⟨text, readText_eq_ok_iff.2 ⟨charset, content, hnamed, hread, hdecode⟩, rfl⟩)
      cases hlines.symm.trans h
    | error flaw =>
      have hflaw := citedLines_of_undecodable hnamed ⟨content, hread, hdecode⟩
      have hfailure : flaw.failure p = .fault fault := Except.error.inj (hflaw.symm.trans h)
      cases flaw with
      | invalid e => cases hfailure
      | noByteOrderMark => exact ⟨(Failure.fault.inj hfailure).symm, content, hread, hdecode⟩

theorem notText_of_citedLines_fault {encoding : Option Text} (hnamed : Charset.NamedBy encoding charset)
    (h : t.citedLines encoding p = .error (.fault fault)) :
    fault.NotText ∨ fault = .noByteOrderMark ∧ t.Undecodable charset p .noByteOrderMark := by
  obtain hread | hflaw := cause_of_citedLines_fault hnamed h
  · exact Or.inl ((t.ends_readAt (t.ends_reach p)).of_error hread)
  · exact Or.inr hflaw

end Tree

/-! ### Resolving -/

/-- Resolving a file fails for the file that takes part in it and does not decode. -/
theorem resolveFile_of_takesPart (hnamed : Charset.NamedBy config.encoding charset) (h : TakesPart t config base file p)
    (hflaw : t.Undecodable charset p flaw) :
    (resolveFile t config base file).outcome = .error ((flaw.failure p).inFile (base.within file)) := by
  have hlines := Tree.citedLines_of_undecodable hnamed hflaw
  cases h with
  | source => exact outcome_resolveFile_of_error hlines
  | cited met found =>
    exact resolveFile_of_meetsIn met fun descend =>
      outcome_resolveSegment_of_excerpt descend found (Tree.excerpt_of_citedLines_error hlines _)

theorem notText_of_resolveFile_fault (hnamed : Charset.NamedBy config.encoding charset)
    (h : (resolveFile t config base file).outcome = .error (.fault fault)) :
    fault.NotText ∨ fault = .noByteOrderMark ∧ ∃ p, TakesPart t config base file p ∧ t.Undecodable charset p .noByteOrderMark := by
  cases hlines : t.citedLines config.encoding (base.within file) with
  | error failure =>
    rw [outcome_resolveFile_of_error hlines] at h
    obtain rfl := Failure.inFile_eq_fault_iff.1 (Except.error.inj h)
    obtain hother | ⟨hfault, hflaw⟩ := Tree.notText_of_citedLines_fault hnamed hlines
    · exact Or.inl hother
    · exact Or.inr ⟨hfault, _, .source, hflaw⟩
  | ok lines =>
    obtain ⟨ctx, body, own, hmet, hraised, hown⟩ := exists_raisedAt_of_resolveFile hlines h
    obtain rfl := Failure.inFile_eq_fault_iff.1 hown.symm
    obtain ⟨content, hread⟩ := hmet.exists_read
    cases hraised with
    | own fails =>
      obtain ⟨count, -, rfl⟩ | hmargin | ⟨c, target, hfound, hexcerpt⟩ := cause_of_ownFailure?_fault hread fails
      · exact Or.inl trivial
      · exact Or.inl ((ends_checkMargin config).of_error hmargin)
      · obtain hother | ⟨hfault, hflaw⟩ := Tree.notText_of_citedLines_fault hnamed (Tree.citedLines_of_excerpt_fault hexcerpt)
        · exact Or.inl hother
        · exact Or.inr ⟨hfault, target, .cited hmet hfound, hflaw⟩

/-! ### Runs -/

theorem runFile_of_complaint (hgoing : config.keepGoing = true)
    (h : (resolveFile t config base file).outcome = .error (.citation complaint)) :
    (runFile config base t file).tree = t ∧ (runFile config base t file).outcome = .ok (.failed (base.within file) complaint) := by
  have hfile : complaint.file = some (base.within file) := file_of_resolveFile h
  rw [runFile]
  dsimp only
  rw [h]
  simp [hgoing, hfile]

/-- A run that goes on records the complaint about a file and resolves the others as if the file had not been there. -/
theorem resolveFiles_of_complaint {earlier later : List Path} {before : Run} (hgoing : config.keepGoing = true)
    (hbefore : (resolveFiles config base t earlier).outcome = .ok before)
    (h : (resolveFile (resolveFiles config base t earlier).tree config base file).outcome = .error (.citation complaint)) :
    (resolveFiles config base t (earlier ++ file :: later)).tree =
        (resolveFiles config base (resolveFiles config base t earlier).tree later).tree ∧
      (resolveFiles config base t (earlier ++ file :: later)).outcome =
        (resolveFiles config base (resolveFiles config base t earlier).tree later).outcome.map fun rest =>
          ⟨before.results ++ .failed (base.within file) complaint :: rest.results⟩ := by
  obtain ⟨htree, hfailed⟩ := runFile_of_complaint hgoing h
  rw [resolveFiles_append, Batch.goOn, hbefore]
  dsimp only
  rw [resolveFiles_cons_of_ok hfailed, htree]
  refine ⟨rfl, ?_⟩
  cases (resolveFiles config base (resolveFiles config base t earlier).tree later).outcome <;> rfl

theorem notText_of_resolveFiles_fault (hnamed : Charset.NamedBy config.encoding charset)
    (h : (resolveFiles config base t files).outcome = .error (.fault fault)) :
    fault.NotText ∨ fault = .noByteOrderMark ∧
      ∃ u file p, ComesTo config base t files u file ∧ TakesPart u config base file p ∧ u.Undecodable charset p .noByteOrderMark := by
  obtain ⟨u, file, hcomes, hrun⟩ := exists_comesTo_of_error h
  rw [runFile] at hrun
  dsimp only at hrun
  cases hresolve : (resolveFile u config base file).outcome with
  | ok resolved =>
    rw [hresolve] at hrun
    dsimp only at hrun
    split at hrun
    · next failure hplace =>
      obtain rfl := Except.error.inj hrun
      exact Or.inl ((ends_place hnamed hresolve).of_error hplace)
    · cases hrun
  | error failure =>
    rw [hresolve] at hrun
    cases failure with
    | citation complaint => cases hgoing : config.keepGoing <;> simp [hgoing] at hrun
    | fault cause =>
      obtain rfl := Failure.fault.inj (Except.error.inj hrun)
      obtain hother | ⟨hfault, p, hpart, hflaw⟩ := notText_of_resolveFile_fault hnamed hresolve
      · exact Or.inl hother
      · exact Or.inr ⟨hfault, u, file, p, hcomes, hpart, hflaw⟩

/-! ### Checking -/

theorem checkFile_of_undecodable {e : Charset.DecodeError} (hnamed : Charset.NamedBy config.encoding charset)
    (h : t.Undecodable charset (base.within file) (.invalid e)) :
    checkFile t config base file =
      .ok [⟨(base.within file).toText, 0, [], (CitationError.unreadable (base.within file) (.decoding e)).describe⟩] := by
  rw [checkFile, Tree.citedLines_of_undecodable hnamed h]
  rfl

theorem mem_of_checkFile_of_undecodable {lines : List Text} {marker : Nat × Text} {c : Citation} {e : Charset.DecodeError}
    {issues : List Issue} (hnamed : Charset.NamedBy config.encoding charset)
    (hlines : t.citedLines config.encoding (base.within file) = .ok lines) (hmarker : marker ∈ Segment.numberedMarkers 1 lines)
    (hfound : Reading.ofBody t { baseDir := base, citingFile := base.within file } marker.2 = .ok (.found c p))
    (hflaw : t.Undecodable charset p (.invalid e)) (h : checkFile t config base file = .ok issues) :
    ⟨(base.within file).toText, marker.1, (Segment.marker marker.2).toText, (CitationError.unreadable p (.decoding e)).describe⟩ ∈
      issues := by
  have hexcerpt := Tree.excerpt_of_citedLines_error (Tree.citedLines_of_undecodable hnamed hflaw) c
  obtain ⟨found, hfinding, hissues⟩ := Check.exists_finding_of_ok hlines h hmarker
  rw [Check.finding?_of_ofBody hfound, Check.problem?, hexcerpt] at hfinding
  obtain rfl := Except.ok.inj hfinding
  exact hissues _ rfl

/-- Checking ends with a fault because there is nothing to read, for a number of too many digits, or for a byte order mark that is missing. -/
theorem cause_of_checkFile_fault (hnamed : Charset.NamedBy config.encoding charset) (h : checkFile t config base file = .error fault) :
    t.read (base.within file) = .error fault ∨
      (∃ lines marker count, t.citedLines config.encoding (base.within file) = .ok lines ∧
        marker ∈ Segment.numberedMarkers 1 lines ∧ Citation.Overlong marker.2 count ∧ fault = .tooManyDigits count) ∨
      fault = .noByteOrderMark ∧ ∃ p, Check.TakesPart t config base file p ∧ t.Undecodable charset p .noByteOrderMark := by
  cases hlines : t.citedLines config.encoding (base.within file) with
  | error failure =>
    rw [checkFile, hlines] at h
    cases failure with
    | citation complaint => cases h
    | fault cause =>
      obtain rfl := Except.error.inj h
      obtain hread | ⟨hfault, hflaw⟩ := Tree.cause_of_citedLines_fault hnamed hlines
      · exact Or.inl hread
      · exact Or.inr (Or.inr ⟨hfault, _, .source, hflaw⟩)
  | ok lines =>
    obtain ⟨content, hread⟩ := Tree.exists_read_of_citedLines hlines
    obtain ⟨marker, hmarker, hfinding⟩ := Check.exists_finding_of_error hlines h
    obtain ⟨count, hparse, hfault⟩ | ⟨c, target, hfound, hexcerpt⟩ := Check.cause_of_finding? hread hfinding
    · exact Or.inr (Or.inl ⟨lines, marker, count, rfl, hmarker, Citation.parse_eq_tooManyDigits_iff.1 hparse, hfault⟩)
    · obtain ⟨bytes, hbytes⟩ := Tree.exists_read_of_isFile (Context.isFile_of_locate (Reading.describes_of_ofBody hfound).2)
      obtain hread | ⟨hfault, hflaw⟩ := Tree.cause_of_citedLines_fault hnamed (Tree.citedLines_of_excerpt_fault hexcerpt)
      · cases hbytes.symm.trans hread
      · exact Or.inr (Or.inr ⟨hfault, target, .cited hlines hmarker hfound, hflaw⟩)

/-! ### All of them -/

/-- What resolving, running and checking make of files that do not decode. -/
structure ReportsUndecodable (charset : Charset) (t : Tree) (config : Config) (base file : Path) : Prop where
  /-- Resolving complains of the file that does not decode, on behalf of the file that is resolved. -/
  resolve : ∀ p e, TakesPart t config base file p → t.Undecodable charset p (.invalid e) →
    (resolveFile t config base file).outcome = .error (.citation ⟨.unreadable p (.decoding e), some (base.within file)⟩)
  /-- A run that goes on records this complaint, and then resolves the remaining files in the tree that it has come to. -/
  run : ∀ earlier later before p e, config.keepGoing = true → (resolveFiles config base t earlier).outcome = .ok before →
    TakesPart (resolveFiles config base t earlier).tree config base file p →
    (resolveFiles config base t earlier).tree.Undecodable charset p (.invalid e) →
    (resolveFiles config base t (earlier ++ file :: later)).tree =
        (resolveFiles config base (resolveFiles config base t earlier).tree later).tree ∧
      (resolveFiles config base t (earlier ++ file :: later)).outcome =
        (resolveFiles config base (resolveFiles config base t earlier).tree later).outcome.map fun rest =>
          ⟨before.results ++
            .failed (base.within file) ⟨.unreadable p (.decoding e), some (base.within file)⟩ :: rest.results⟩
  /-- Checking reports a file that does not decode as the one issue there is. -/
  check : ∀ e, t.Undecodable charset (base.within file) (.invalid e) →
    checkFile t config base file =
      .ok [⟨(base.within file).toText, 0, [], (CitationError.unreadable (base.within file) (.decoding e)).describe⟩]
  /-- Checking reports every marker that leads to a file that does not decode. -/
  checkCited : ∀ lines marker c p e issues, t.citedLines config.encoding (base.within file) = .ok lines →
    marker ∈ Segment.numberedMarkers 1 lines →
    Reading.ofBody t { baseDir := base, citingFile := base.within file } marker.2 = .ok (.found c p) →
    t.Undecodable charset p (.invalid e) → checkFile t config base file = .ok issues →
    ⟨(base.within file).toText, marker.1, (Segment.marker marker.2).toText, (CitationError.unreadable p (.decoding e)).describe⟩ ∈
      issues
  /-- A byte order mark that is missing ends resolving. -/
  resolveUnmarked : ∀ p, TakesPart t config base file p → t.Undecodable charset p .noByteOrderMark →
    (resolveFile t config base file).outcome = .error (.fault .noByteOrderMark)
  /-- No bytes end resolving in another way. -/
  resolveFault : ∀ fault, (resolveFile t config base file).outcome = .error (.fault fault) →
    fault.NotText ∨ fault = .noByteOrderMark ∧ ∃ p, TakesPart t config base file p ∧ t.Undecodable charset p .noByteOrderMark
  /-- No bytes end a run in another way. -/
  runFault : ∀ files fault, (resolveFiles config base t files).outcome = .error (.fault fault) →
    fault.NotText ∨ fault = .noByteOrderMark ∧
      ∃ u file p, ComesTo config base t files u file ∧ TakesPart u config base file p ∧ u.Undecodable charset p .noByteOrderMark
  /-- Checking gives issues, unless the file cannot be opened, a number has too many digits, or a byte order mark is missing. -/
  checkFault : ∀ fault, checkFile t config base file = .error fault →
    t.read (base.within file) = .error fault ∨
      (∃ lines marker count, t.citedLines config.encoding (base.within file) = .ok lines ∧
        marker ∈ Segment.numberedMarkers 1 lines ∧ Citation.Overlong marker.2 count ∧ fault = .tooManyDigits count) ∨
      fault = .noByteOrderMark ∧ ∃ p, Check.TakesPart t config base file p ∧ t.Undecodable charset p .noByteOrderMark

/-- Files that do not decode are complained of, recorded and reported, and only UTF-16 can miss a byte order mark. -/
theorem reportsUndecodable (hnamed : Charset.NamedBy config.encoding charset) (t : Tree) (base file : Path) :
    ReportsUndecodable charset t config base file ∧
      (charset ≠ .utf16 → ∀ u : Tree, ∀ p, ¬ u.Undecodable charset p .noByteOrderMark) := by
  constructor
  · constructor
    case resolve => exact fun p e hpart hflaw => resolveFile_of_takesPart hnamed hpart hflaw
    case run =>
      intro earlier later before p e hgoing hbefore hpart hflaw
      exact resolveFiles_of_complaint hgoing hbefore (resolveFile_of_takesPart hnamed hpart hflaw)
    case check => exact fun e hflaw => checkFile_of_undecodable hnamed hflaw
    case checkCited =>
      intro lines marker c p e issues hlines hmarker hfound hflaw hissues
      exact mem_of_checkFile_of_undecodable hnamed hlines hmarker hfound hflaw hissues
    case resolveUnmarked => exact fun p hpart hflaw => resolveFile_of_takesPart hnamed hpart hflaw
    case resolveFault => exact fun fault h => notText_of_resolveFile_fault hnamed h
    case runFault => exact fun files fault h => notText_of_resolveFiles_fault hnamed h
    case checkFault => exact fun fault h => cause_of_checkFile_fault hnamed h
  · intro hcharset u p hflaw
    obtain ⟨content, -, hdecode⟩ := hflaw
    exact charset.decode_ne_noByteOrderMark hcharset content hdecode

def garbledTree : Tree :=
  ⟨[], .file "a".toList (Charset.Utf8.encode "[b]\n".toList)
    (.file "b".toList [0xff] (.file "c".toList (Charset.Utf8.encode "x\n".toList) .empty))⟩

theorem reportsUndecodable_in_garbledTree :
    let complaint : Complaint :=
      ⟨.unreadable (Path.ofText "b".toList) (.decoding ⟨.utf8, 0, [0xff], .invalidStart⟩), some (Path.ofText "a".toList)⟩
    (resolveFile garbledTree { keepGoing := true } Path.here (Path.ofText "a".toList)).outcome = .error (.citation complaint) ∧
      (∃ placed, (resolveFiles { keepGoing := true } Path.here garbledTree [Path.ofText "a".toList, Path.ofText "c".toList]).outcome =
        .ok ⟨[.failed (Path.ofText "a".toList) complaint, .placed placed]⟩) ∧
      ∀ issues, checkFile garbledTree { keepGoing := true } Path.here (Path.ofText "a".toList) = .ok issues →
        ⟨"a".toList, 1, "[b]".toList, complaint.error.describe⟩ ∈ issues := by
  intro complaint
  have hnamed : Charset.NamedBy ({ keepGoing := true } : Config).encoding .utf8 := Charset.namedBy_utf8
  obtain ⟨hreports, -⟩ := reportsUndecodable hnamed garbledTree Path.here (Path.ofText "a".toList)
  have hflaw : garbledTree.Undecodable .utf8 (Path.ofText "b".toList) (.invalid ⟨.utf8, 0, [0xff], .invalidStart⟩) :=
    ⟨[0xff], by decide +kernel, by decide +kernel⟩
  have hlines : garbledTree.citedLines (some "utf-8".toList) (Path.here.within (Path.ofText "a".toList)) = .ok ["[b]".toList] := by
    decide +kernel
  have hfound : Reading.ofBody garbledTree { baseDir := Path.here, citingFile := Path.ofText "a".toList } "b".toList =
      .ok (.found ⟨"b".toList, .whole⟩ (Path.ofText "b".toList)) := by decide +kernel
  have hmarkers : ["[b]".toList].flatMap Segment.markers = [] ++ "b".toList :: [] := by decide +kernel
  have hpart : TakesPart garbledTree { keepGoing := true } Path.here (Path.ofText "a".toList) (Path.ofText "b".toList) :=
    .cited ⟨_, hlines, .here ⟨[], [], hmarkers, by simp⟩⟩ hfound
  refine ⟨hreports.resolve _ _ hpart hflaw, ?_, ?_⟩
  · obtain ⟨-, hrun⟩ := hreports.run [] [Path.ofText "c".toList] ⟨[]⟩ _ _ rfl rfl hpart hflaw
    have hlater : (resolveFiles { keepGoing := true } Path.here garbledTree [Path.ofText "c".toList]).outcome =
        .ok ⟨[.placed ⟨⟨Path.ofText "c".toList, ["x".toList], false, 0, []⟩, Path.ofText "c".toList⟩]⟩ := by decide +kernel
    exact ⟨_, hrun.trans (congrArg (Except.map _) hlater)⟩
  · have hmem : (1, "b".toList) ∈ Segment.numberedMarkers 1 ["[b]".toList] := by decide +kernel
    exact fun issues => hreports.checkCited _ _ _ _ _ issues hlines hmem hfound hflaw

def unmarkedTree : Tree := ⟨[], .file "a".toList [0x61, 0x00] .empty⟩

/-- Where the byte order mark is missing, nothing is complained of, recorded or reported. -/
theorem exists_unmarked_fault :
    let config : Config := { encoding := some "utf-16".toList, keepGoing := true }
    Charset.NamedBy config.encoding .utf16 ∧ unmarkedTree.Undecodable .utf16 (Path.ofText "a".toList) .noByteOrderMark ∧
      (resolveFile unmarkedTree config Path.here (Path.ofText "a".toList)).outcome = .error (.fault .noByteOrderMark) ∧
      (resolveFiles config Path.here unmarkedTree [Path.ofText "a".toList]).outcome = .error (.fault .noByteOrderMark) ∧
      checkFile unmarkedTree config Path.here (Path.ofText "a".toList) = .error .noByteOrderMark := by
  intro config
  refine ⟨⟨"utf-16".toList, by decide, by decide⟩, ⟨[0x61, 0x00], by decide +kernel, by decide +kernel⟩, ?_, ?_, ?_⟩
  · decide +kernel
  · decide +kernel
  · decide +kernel

end Quotation
