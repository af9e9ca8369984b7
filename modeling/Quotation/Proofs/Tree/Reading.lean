import Quotation.Proofs.Excerpt
import Quotation.Proofs.Resolution.Outcome
import Quotation.Resolution.Reading

/-!
# Reading files

What can be read is a file, and the text read from it is what its bytes stand for in the charset that was asked for (`readText_eq_ok_iff`). A file that is there can fail to be read in one way only, by bytes that stand for nothing, as long as the charset tells its byte order (`citedLines_ne_fault`).
-/

namespace Quotation

open Outcome

/-- The charset that a setting names. -/
def Charset.NamedBy (encoding : Option Text) (charset : Charset) : Prop :=
  ∃ name, Charset.usableName encoding = .ok name ∧ Charset.choose name = .ok charset

theorem Charset.NamedBy.unique {encoding : Option Text} {a b : Charset} (ha : NamedBy encoding a) (hb : NamedBy encoding b) :
    a = b := by
  obtain ⟨name, hname, ha⟩ := ha
  obtain ⟨other, hother, hb⟩ := hb
  obtain rfl : name = other := Except.ok.inj (hname.symm.trans hother)
  exact Except.ok.inj (ha.symm.trans hb)

theorem Charset.namedBy_utf8 : NamedBy (some "utf-8".toList) .utf8 := ⟨"utf-8".toList, by decide, by decide⟩

/-- Only UTF-16 asks for a byte order mark. -/
theorem Charset.decode_ne_noByteOrderMark {charset : Charset} (h : charset ≠ .utf16) (content : Bytes) :
    charset.decode content ≠ .error .noByteOrderMark := by
  intro hdecode
  have hinvalid : ∀ x : Except Charset.DecodeError Text, x.mapError Charset.DecodeFailure.invalid ≠ .error .noByteOrderMark := by
    intro x
    cases x <;> simp [Except.mapError]
  cases charset with
  | utf8 => exact hinvalid _ hdecode
  | utf8Marked => exact hinvalid _ hdecode
  | utf16 => exact h rfl
  | ascii => exact hinvalid _ hdecode
  | latin1 => cases hdecode

namespace Tree

variable {t : Tree} {p : Path} {encoding : Option Text}

theorem resolve_eq_of_cwd {u : Tree} (h : u.cwd = t.cwd) : u.resolve = t.resolve := by
  funext p
  rw [resolve, resolve, h]

theorem entryAt_eq_ok_iff {reached : Except Fault Place} {entry : Entry} :
    t.entryAt reached = .ok entry ↔ ∃ place, reached = .ok place ∧ t.get? place = some entry := by
  rw [entryAt, bind_eq_ok_iff]
  refine exists_congr fun place => and_congr_right fun _ => ?_
  cases t.get? place <;> simp [pure, Except.pure, throw, throwThe, MonadExceptOf.throw]

theorem readAt_eq_ok_iff {reached : Except Fault Place} {content : Bytes} :
    t.readAt reached = .ok content ↔ ∃ place, reached = .ok place ∧ t.get? place = some (.file content) := by
  rw [readAt, bind_eq_ok_iff, ← entryAt_eq_ok_iff]
  constructor
  · rintro ⟨entry, hentry, hcontent⟩
    cases entry with
    | file bytes => exact Except.ok.inj hcontent ▸ hentry
    | directory => cases hcontent
  · exact fun h => ⟨_, h, rfl⟩

theorem read_eq_ok_iff {content : Bytes} : t.read p = .ok content ↔ t.entry p = .ok (.file content) := by
  rw [read, entry, readAt_eq_ok_iff, entryAt_eq_ok_iff]

theorem readText_eq_ok_iff {text : Text} :
    t.readText p encoding = .ok text ↔
      ∃ charset content, Charset.NamedBy encoding charset ∧ t.read p = .ok content ∧ charset.decode content = .ok text := by
  simp only [readText, bind_eq_ok_iff]
  constructor
  · rintro ⟨name, hname, content, hcontent, charset, hcharset, htext⟩
    refine ⟨charset, content, ⟨name, hname, hcharset⟩, hcontent, ?_⟩
    cases hdecode : charset.decode content with
    | ok decoded => simpa [hdecode, pure, Except.pure] using htext
    | error failure => cases failure <;> simp [hdecode] at htext
  · rintro ⟨charset, content, ⟨name, hname, hcharset⟩, hcontent, hdecode⟩
    exact ⟨name, hname, content, hcontent, charset, hcharset, by simp [hdecode, pure, Except.pure]⟩

theorem readLines_eq_ok_iff {lines : List Text} :
    t.readLines p encoding = .ok lines ↔
      ∃ text, t.readText p encoding = .ok text ∧ Text.lines (Text.unifyBreaks text) = lines := map_eq_ok_iff

theorem not_mem_of_readLines {lines : List Text} (h : t.readLines p encoding = .ok lines) : ∀ line ∈ lines, '\n' ∉ line := by
  obtain ⟨text, -, rfl⟩ := readLines_eq_ok_iff.1 h
  intro line hline hbreak
  have hnot := Text.not_isBreak_of_mem_lines _ line hline '\n' hbreak
  cases hnot

theorem citedLines_eq_ok_iff {lines : List Text} : t.citedLines encoding p = .ok lines ↔ t.readLines p encoding = .ok lines :=
  mapError_eq_ok_iff

theorem exists_read_of_citedLines {lines : List Text} (h : t.citedLines encoding p = .ok lines) :
    ∃ content, t.read p = .ok content := by
  obtain ⟨text, htext, -⟩ := readLines_eq_ok_iff.1 (citedLines_eq_ok_iff.1 h)
  obtain ⟨-, content, -, hcontent, -⟩ := readText_eq_ok_iff.1 htext
  exact ⟨content, hcontent⟩

theorem isFile_of_read {content : Bytes} (h : t.read p = .ok content) : t.isFile p = true := by
  rw [isFile, read_eq_ok_iff.1 h]

theorem isDir_of_read {content : Bytes} (h : t.read p = .ok content) : t.isDir p = .ok false := by
  rw [isDir, read_eq_ok_iff.1 h]

theorem entry_of_isDir (h : t.isDir p = .ok true) : t.entry p = .ok .directory := by
  rw [isDir] at h
  split at h
  · next hentry => exact hentry
  all_goals cases h

theorem exists_read_of_isFile (h : t.isFile p = true) : ∃ content, t.read p = .ok content := by
  rw [isFile] at h
  split at h
  · next content hentry => exact ⟨content, read_eq_ok_iff.2 hentry⟩
  · cases h

/-- Reading a file that is there ends a run in no other way than by a citation error. -/
theorem citedLines_ne_fault {charset : Charset} {content : Bytes} (hnamed : Charset.NamedBy encoding charset)
    (hcharset : charset ≠ .utf16) (hread : t.read p = .ok content) (fault : Fault) :
    t.citedLines encoding p ≠ .error (.fault fault) := by
  obtain ⟨name, hname, hchoose⟩ := hnamed
  have hdecode := charset.decode_ne_noByteOrderMark hcharset content
  simp only [citedLines, readLines, readText, hname, hread, hchoose, bind, Except.bind]
  cases h : charset.decode content with
  | ok text => simp [Except.map, Except.mapError, pure, Except.pure]
  | error failure =>
    cases failure with
    | invalid e => simp [Except.map, Except.mapError, throw, throwThe, MonadExceptOf.throw, CitationError.failure]
    | noByteOrderMark => exact absurd h hdecode

theorem excerpt_of_citedLines_error {failure : Failure} (h : t.citedLines encoding p = .error failure) (c : Citation) :
    t.excerpt encoding c p = .error failure := by
  rw [excerpt, h]
  rfl

theorem citedLines_of_excerpt_fault {c : Citation} {fault : Fault} (h : t.excerpt encoding c p = .error (.fault fault)) :
    t.citedLines encoding p = .error (.fault fault) := by
  cases hlines : t.citedLines encoding p with
  | error failure => rw [Except.error.inj ((excerpt_of_citedLines_error hlines c).symm.trans h)]
  | ok lines =>
    rw [excerpt, hlines] at h
    change (Excerpt.extract lines c).mapError CitationError.failure = _ at h
    cases hextract : Excerpt.extract lines c <;> simp [hextract, Except.mapError, CitationError.failure] at h

theorem excerpt_ne_fault {charset : Charset} {c : Citation} (hnamed : Charset.NamedBy encoding charset)
    (hcharset : charset ≠ .utf16) (hfile : t.isFile p = true) (fault : Fault) :
    t.excerpt encoding c p ≠ .error (.fault fault) := by
  obtain ⟨content, hread⟩ := exists_read_of_isFile hfile
  exact fun h => citedLines_ne_fault hnamed hcharset hread fault (citedLines_of_excerpt_fault h)

end Tree

/-! ### Errors of quotes -/

theorem Tree.complaint_of_citedLines {t : Tree} {encoding : Option Text} {p : Path} {complaint : Complaint}
    (h : t.citedLines encoding p = .error (.citation complaint)) :
    complaint.file = none ∧ complaint.error.ConcernsTarget := by
  rw [citedLines] at h
  cases hread : t.readLines p encoding with
  | ok lines => simp [hread, Except.mapError] at h
  | error fault =>
    rw [hread] at h
    have hfault := Except.error.inj h
    cases fault <;> simp only [CitationError.failure, Failure.citation.injEq, reduceCtorEq] at hfault
    all_goals exact hfault ▸ ⟨rfl, trivial⟩

/-- A quote that cannot be taken is complained about without naming the citing file, and for what it is taken from. -/
theorem Tree.complaint_of_excerpt {t : Tree} {encoding : Option Text} {c : Citation} {p : Path} {complaint : Complaint}
    (h : t.excerpt encoding c p = .error (.citation complaint)) :
    complaint.file = none ∧ complaint.error.ConcernsTarget := by
  rw [excerpt] at h
  cases hlines : t.citedLines encoding p with
  | ok lines =>
    rw [hlines] at h
    change (Excerpt.extract lines c).mapError CitationError.failure = _ at h
    cases hextract : Excerpt.extract lines c with
    | ok quote => simp [hextract, Except.mapError] at h
    | error e =>
      rw [hextract] at h
      obtain rfl : ⟨e, none⟩ = complaint := Failure.citation.inj (Except.error.inj h)
      exact ⟨rfl, Excerpt.concernsTarget_of_extract hextract⟩
  | error failure =>
    rw [hlines] at h
    obtain rfl : failure = .citation complaint := Except.error.inj h
    exact complaint_of_citedLines hlines

end Quotation
