import Quotation.Proofs.Check.Findings
import Quotation.Proofs.Citation.Spelling
import Quotation.Proofs.Resolution.Raised
import Quotation.Proofs.Resolution.Written
import Quotation.Proofs.Segment.Segmentation

/-!
# Brackets in prose

Brackets stand in prose too, and a marker that names no file is no reason to fail. Whatever resolving a file fails with, as long as missing files are let pass, is raised at a marker that names an existing file, and the same holds of checking (`raised_only_by_files_or_digits`). The exception is a number of too many digits (`Citation.Overlong`): its marker ends both with a fault before anything is looked up, whether its file is there or not (`exists_fault_in_prose`).
-/

namespace Quotation

open Outcome

/-- The reference that the marker is looked up by names an existing file. -/
def NamesFile (t : Tree) (ctx : Context) (body : Text) : Prop :=
  ∃ ref target, Reading.ref? body = some ref ∧ ctx.locate t ref = .ok (some target)

variable {t : Tree} {config : Config} {ctx : Context} {lines : List Text} {body : Text} {c : Citation} {target base file : Path}
  {failure : Failure} {fault : Fault} {marker : Nat × Text}

/-! ### What a marker is to blame for -/

theorem namesFile_of_found (h : Reading.ofBody t ctx body = .ok (.found c target)) : NamesFile t ctx body := by
  obtain ⟨hparse, hlocate⟩ := Reading.describes_of_ofBody h
  exact ⟨c.ref, target, by rw [Reading.ref?, hparse], hlocate⟩

theorem namesFile_of_faulty {token : Text} {reason : Malformed} (h : Reading.ofBody t ctx body = .ok (.faulty token reason)) :
    NamesFile t ctx body := by
  obtain ⟨hparse, target, hlocate⟩ := Reading.describes_of_ofBody h
  exact ⟨Citation.refOf body, target, by rw [Reading.ref?, hparse], hlocate⟩

theorem Reading.ofBody_of_overlong {count : Nat} (h : Citation.Overlong body count) :
    ofBody t ctx body = .error (.tooManyDigits count) := by
  rw [ofBody, Citation.parse_of_overlong h]

/-- In a file that can be read, a marker fails by itself only if it names an existing file or has a number of too many digits. -/
theorem namesFile_or_overlong_of_ownFailure? {content : Bytes} (hlenient : config.failOnUnresolved = false)
    (hread : t.read ctx.citingFile = .ok content) (h : ownFailure? t config ctx body = some failure) :
    NamesFile t ctx body ∨ ∃ count, Citation.Overlong body count ∧ failure = .fault (.tooManyDigits count) := by
  cases failsByItself_of_ownFailure? h with
  | unread hunread =>
    obtain ⟨count, hparse, rfl⟩ := Reading.tooManyDigits_of_ofBody (Tree.isDir_of_read hread) hunread
    exact Or.inr ⟨count, Citation.parse_eq_tooManyDigits_iff.1 hparse, rfl⟩
  | faulty hfaulty => exact Or.inl (namesFile_of_faulty hfaulty)
  | dangling _ hstrict => cases hlenient.symm.trans hstrict
  | excerpt hfound _ => exact Or.inl (namesFile_of_found hfound)
  | margin hfound _ => exact Or.inl (namesFile_of_found hfound)

theorem RaisedAt.namesFile_or_overlong {content : Bytes} (h : RaisedAt t config ctx body failure)
    (hlenient : config.failOnUnresolved = false) (hread : t.read ctx.citingFile = .ok content) :
    NamesFile t ctx body ∨ ∃ count, Citation.Overlong body count ∧ failure = .fault (.tooManyDigits count) := by
  cases h with
  | own fails => exact namesFile_or_overlong_of_ownFailure? hlenient hread fails
  | tooDeep found _ _ => exact Or.inl (namesFile_of_found found)

theorem Check.namesFile_or_overlong_of_finding? {content : Bytes} (hread : t.read ctx.citingFile = .ok content)
    (h : finding? t config ctx marker = .error fault) :
    NamesFile t ctx marker.2 ∨ ∃ count, Citation.Overlong marker.2 count ∧ fault = .tooManyDigits count := by
  obtain ⟨count, hparse, hfault⟩ | ⟨c, target, hfound, -⟩ := cause_of_finding? hread h
  · exact Or.inr ⟨count, Citation.parse_eq_tooManyDigits_iff.1 hparse, hfault⟩
  · exact Or.inl (namesFile_of_found hfound)

/-! ### Files -/

/-- Tokens are read or malformed, and where missing files are let pass, markers keep a file from being resolved or checked only if they name an existing file. A number of too many digits is the exception to both. -/
theorem raised_only_by_files_or_digits (hlenient : config.failOnUnresolved = false)
    (hlines : t.citedLines config.encoding (base.within file) = .ok lines) :
    (∀ token, (((∃ c, Citation.parse token = .ok c) ∨ ∃ reason, Citation.parse token = .error (.malformed token reason)) ↔
        ∀ count, ¬ Citation.Overlong token count) ∧
      ∀ count, Citation.parse token = .error (.tooManyDigits count) ↔ Citation.Overlong token count) ∧
      (∀ failure, (resolveFile t config base file).outcome = .error failure →
        ∃ ctx body own, MeetsIn t config base (base.within file) ctx body ∧ RaisedAt t config ctx body own ∧
          failure = own.inFile (base.within file) ∧
          (NamesFile t ctx body ∨ ∃ count, Citation.Overlong body count ∧ own = .fault (.tooManyDigits count))) ∧
      ∀ fault, checkFile t config base file = .error fault →
        ∃ marker ∈ Segment.numberedMarkers 1 lines,
          Check.finding? t config { baseDir := base, citingFile := base.within file } marker = .error fault ∧
          (NamesFile t { baseDir := base, citingFile := base.within file } marker.2 ∨
            ∃ count, Citation.Overlong marker.2 count ∧ fault = .tooManyDigits count) := by
  refine ⟨fun token => ⟨Citation.read_or_malformed_iff token, fun count => Citation.parse_eq_tooManyDigits_iff⟩, ?_, ?_⟩
  · intro failure hfailure
    obtain ⟨ctx, body, own, hmet, hraised, hown⟩ := exists_raisedAt_of_resolveFile hlines hfailure
    obtain ⟨content, hread⟩ := hmet.exists_read
    exact ⟨ctx, body, own, hmet, hraised, hown, hraised.namesFile_or_overlong hlenient hread⟩
  · intro fault hfault
    obtain ⟨content, hread⟩ := Tree.exists_read_of_citedLines hlines
    obtain ⟨marker, hmarker, hfinding⟩ := Check.exists_finding_of_error hlines hfault
    exact ⟨marker, hmarker, hfinding, Check.namesFile_or_overlong_of_finding? hread hfinding⟩

def notesTree : Tree :=
  ⟨[], .file "d".toList (Charset.Utf8.encode "[x] [see: below] [e:2]\n".toList)
    (.file "e".toList (Charset.Utf8.encode "y\n".toList) .empty)⟩

theorem raised_by_file_in_notesTree :
    ∃ ctx body own, MeetsIn notesTree {} Path.here (Path.ofText "d".toList) ctx body ∧ RaisedAt notesTree {} ctx body own ∧
      Failure.citation ⟨.lineOutOfRange "e".toList 2 1, some (Path.ofText "d".toList)⟩ = own.inFile (Path.ofText "d".toList) ∧
      (NamesFile notesTree ctx body ∨ ∃ count, Citation.Overlong body count ∧ own = .fault (.tooManyDigits count)) := by
  have hlines : notesTree.citedLines ({} : Config).encoding (Path.here.within (Path.ofText "d".toList)) =
      .ok ["[x] [see: below] [e:2]".toList] := by decide +kernel
  exact (raised_only_by_files_or_digits rfl hlines).2.1 _ (by decide +kernel)

/-! ### Footnotes of many digits -/

/-- No file, a colon, and a number of `count` digits. -/
def footnote (count : Nat) : Text := 'x' :: ':' :: List.replicate count '1'

def footnoteTree (count : Nat) : Tree :=
  ⟨[], .file "d".toList (Charset.Utf8.encode (Tree.textOfLines [(Segment.marker (footnote count)).toText])) .empty⟩

theorem mem_footnote {count : Nat} {d : Char} (h : d ∈ footnote count) : d = 'x' ∨ d = ':' ∨ d = '1' := by
  obtain rfl | h := List.mem_cons.1 h
  · exact Or.inl rfl
  · obtain rfl | h := List.mem_cons.1 h
    · exact Or.inr (Or.inl rfl)
    · exact Or.inr (Or.inr (List.eq_of_mem_replicate h))

theorem overlong_footnote {count : Nat} (h : Text.digitLimit < count) : Citation.Overlong (footnote count) count := by
  have hdigits : ∀ c ∈ List.replicate count '1', c.isDigit = true := fun c hc => List.eq_of_mem_replicate hc ▸ rfl
  have hoverlong : Citation.Overlong (['x'] ++ ':' :: List.replicate count '1') (List.replicate count '1').length :=
    Citation.overlong_of_digits rfl (by decide) (by decide) hdigits (by simpa using h)
  simpa [footnote] using hoverlong

theorem citedLines_footnoteTree (count : Nat) :
    (footnoteTree count).citedLines (some "utf-8".toList) (Path.ofText "d".toList) = .ok [(Segment.marker (footnote count)).toText] := by
  have hunbroken : ∀ line ∈ [(Segment.marker (footnote count)).toText], ∀ c ∈ line, Text.isBreak c = false := by
    intro line hline c hc
    obtain rfl := List.mem_singleton.1 hline
    simp only [Segment.toText, List.cons_append, List.mem_cons, List.mem_append, List.not_mem_nil, or_false] at hc
    obtain rfl | hc | rfl := hc
    · rfl
    · obtain rfl | rfl | rfl := mem_footnote hc <;> rfl
    · rfl
  have hread : (footnoteTree count).read (Path.ofText "d".toList) =
      .ok (Charset.Utf8.encode (Tree.textOfLines [(Segment.marker (footnote count)).toText])) := rfl
  refine Tree.citedLines_eq_ok_iff.2 (Tree.readLines_eq_ok_iff.2 ⟨_, Tree.readText_eq_ok_iff.2 ?_, lines_textOfLines (by simp) hunbroken⟩)
  exact ⟨.utf8, _, Charset.namedBy_utf8, hread, Charset.decode_of_encode rfl⟩

theorem markers_footnote (count : Nat) : Segment.markers ((Segment.marker (footnote count)).toText) = [footnote count] := by
  have hbrackets : ∀ d ∈ ['[', ']'], d ∉ footnote count := by
    intro d hd hmem
    obtain rfl | rfl | rfl := mem_footnote hmem <;> simp at hd
  have hcloses : Segment.ClosesAt false (footnote count ++ [']']) (footnote count).length :=
    Segment.closesAt_of_not_mem (hbrackets '[' (by simp)) (hbrackets ']' (by simp)) []
  have hne : footnote count ≠ [] := List.cons_ne_nil _ _
  rw [Segment.markers, Segment.toText, Segment.split_enclosed hne hcloses]
  rfl

theorem fault_in_footnoteTree {count : Nat} (h : Text.digitLimit < count) :
    Context.locate (footnoteTree count) { baseDir := Path.here, citingFile := Path.ofText "d".toList } "x".toList = .ok none ∧
      Citation.parse (footnote count) = .error (.tooManyDigits count) ∧
      (resolveFile (footnoteTree count) {} Path.here (Path.ofText "d".toList)).outcome = .error (.fault (.tooManyDigits count)) ∧
      checkFile (footnoteTree count) {} Path.here (Path.ofText "d".toList) = .error (.tooManyDigits count) := by
  have hoverlong : Citation.Overlong (footnote count) count := overlong_footnote h
  have hlines : (footnoteTree count).citedLines ({} : Config).encoding (Path.here.within (Path.ofText "d".toList)) =
      .ok [(Segment.marker (footnote count)).toText] := citedLines_footnoteTree count
  refine ⟨rfl, Citation.parse_of_overlong hoverlong, ?_, ?_⟩
  · have hfirst : [(Segment.marker (footnote count)).toText].flatMap Segment.markers = [] ++ footnote count :: [] := by
      rw [List.flatMap_singleton, markers_footnote, List.nil_append]
    exact resolveFile_of_meetsIn ⟨_, hlines, .here ⟨[], [], hfirst, by simp⟩⟩ fun descend =>
      outcome_resolveSegment_of_fault descend (Reading.ofBody_of_overlong hoverlong)
  · rw [Check.checkFile_of_citedLines hlines, ← failure?_eq_some_iff, Check.failure?_issuesFrom, Segment.numberedMarkers_cons,
      markers_footnote, List.map_singleton, List.singleton_append, List.findSome?_cons,
      Check.finding?_of_fault (Reading.ofBody_of_overlong hoverlong)]
    rfl

/-- The token is neither read nor malformed, and its brackets, which name no file, keep the file from being resolved and checked. -/
theorem exists_fault_in_prose :
    Context.locate (footnoteTree 4301) { baseDir := Path.here, citingFile := Path.ofText "d".toList } "x".toList = .ok none ∧
      Citation.parse (footnote 4301) = .error (.tooManyDigits 4301) ∧
      (resolveFile (footnoteTree 4301) {} Path.here (Path.ofText "d".toList)).outcome = .error (.fault (.tooManyDigits 4301)) ∧
      checkFile (footnoteTree 4301) {} Path.here (Path.ofText "d".toList) = .error (.tooManyDigits 4301) :=
  fault_in_footnoteTree (by decide)

end Quotation
