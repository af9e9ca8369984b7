import Quotation.Check
import Quotation.Proofs.Citation.Grammar
import Quotation.Proofs.Resolution.FirstFailure

/-!
# Checking agrees with resolving

Checking walks over the markers of a file on its own and reports all of them that resolving would stumble over, while resolving stops at the first. What checking says about a marker can be told from how resolving handles it (`expected?`), and it says this about every marker in turn (`issuesFrom_eq`). A margin that cannot be made is the one thing that resolving fails with and checking does not see: it leaves the layout of quotes alone. Apart from it, resolving raises the error of the first issue that is not about a missing file.
-/

namespace Quotation

open Outcome

/-- The settings under which checking and resolving look at the same things: quotes are not followed, missing files are let pass, and the charset is known and tells its byte order. -/
structure Config.Plain (config : Config) : Prop where
  recursive : config.recursive = false
  lenient : config.failOnUnresolved = false
  named : ∃ charset, Charset.NamedBy config.encoding charset ∧ charset ≠ .utf16

def Failure.error? : Failure → Option CitationError
  | .citation complaint => some complaint.error
  | .fault _ => none

/-- The words in which checking reports a citation error. -/
def CitationError.report : CitationError → String
  | .malformed _ reason => reason.message
  | e => e.describe

namespace Check

/-- The words in which checking reports a citation of a missing file. -/
def missingFile : String := "cited file not found"

/-- How resolving handles a marker of the file `source`. -/
def handling (t : Tree) (config : Config) (base source : Path) (body : Text) : Except Failure Text :=
  (resolveSegment t config (resolveNested t config)
    { baseDir := base, citingFile := source, recursive := config.recursive } (.marker body)).outcome

def raised? (t : Tree) (config : Config) (base source : Path) (body : Text) : Option CitationError :=
  (failure? (handling t config base source body)).bind Failure.error?

/-- Whether a marker is a citation of a missing file by something that looks like a path. -/
def danglesAsPath (t : Tree) (base source : Path) (body : Text) : Bool :=
  match Citation.parse body with
  | .error _ => false
  | .ok c =>
    match Context.locate t { baseDir := base, citingFile := source } c.ref with
    | .ok none => Citation.looksLikePath c.ref
    | _ => false

/-- What there is to report about a marker. -/
def expected? (t : Tree) (config : Config) (base source : Path) (body : Text) : Option String :=
  match raised? t config base source body with
  | some e => some e.report
  | none => if danglesAsPath t base source body then some missingFile else none

def issueAt (source : Path) (marker : Nat × Text) (message : String) : Issue :=
  ⟨source.toText, marker.1, (Segment.marker marker.2).toText, message⟩

def expectedIssue? (t : Tree) (config : Config) (base source : Path) (marker : Nat × Text) : Option Issue :=
  (expected? t config base source marker.2).map (issueAt source marker)

/-! ### Words -/

theorem report_of_not_isMalformed {e : CitationError} (h : ¬ e.IsMalformed) : e.report = e.describe := by
  cases e with
  | malformed => exact absurd trivial h
  | _ => rfl

def StartsOtherwise (words : String) : Prop := ∃ c, words.toList.head? = some c ∧ c ≠ 'c'

theorem StartsOtherwise.append {words : String} (h : StartsOtherwise words) (more : String) : StartsOtherwise (words ++ more) := by
  obtain ⟨c, hhead, hc⟩ := h
  refine ⟨c, ?_, hc⟩
  rw [String.toList_append, List.head?_append, hhead]
  rfl

theorem StartsOtherwise.ne_missingFile {words : String} (h : StartsOtherwise words) : words ≠ missingFile := by
  rintro rfl
  obtain ⟨c, hhead, hc⟩ := h
  exact hc (Option.some.inj hhead).symm

theorem startsOtherwise_describe (e : CitationError) : StartsOtherwise e.describe := by
  cases e <;> dsimp only [CitationError.describe]
  case unspecified => exact ⟨'C', rfl, by decide⟩
  case malformed => exact .append (.append (.append ⟨'M', rfl, by decide⟩ _) _) _
  case lineOutOfRange => exact .append (.append (.append (.append (.append (.append ⟨'L', rfl, by decide⟩ _) _) _) _) _) _
  case invalidRange => exact .append (.append (.append (.append (.append ⟨'I', rfl, by decide⟩ _) _) _) _) _
  case patternNotFound => exact .append (.append (.append ⟨'P', rfl, by decide⟩ _) _) _
  case tooDeep => exact .append (.append (.append ⟨'C', rfl, by decide⟩ _) _) _
  case unresolved => exact .append (.append (.append ⟨'C', rfl, by decide⟩ _) _) _
  case unreadable => exact .append (.append (.append ⟨'C', rfl, by decide⟩ _) _) _

theorem startsOtherwise_message {reason : Malformed} (h : ∀ words, reason ≠ .stated words) : StartsOtherwise reason.message := by
  cases reason <;> dsimp only [Malformed.message]
  case stated words => exact absurd rfl (h words)
  case badNumber bound written =>
    cases bound
    · exact .append (.append ⟨'s', rfl, by decide⟩ _) _
    · exact .append (.append ⟨'e', rfl, by decide⟩ _) _
  case empty | emptyPattern | endWithoutStart => exact ⟨'e', rfl, by decide⟩
  case noReference | notEnclosed => exact ⟨'m', rfl, by decide⟩
  case bracketInPattern => exact ⟨'p', rfl, by decide⟩
  case tooManyFields => exact ⟨'t', rfl, by decide⟩
  case rangeAndPattern => exact ⟨'l', rfl, by decide⟩

/-! ### One marker -/

section

variable {t : Tree} {config : Config} {base source : Path} {body : Text} {content : Bytes}

theorem failure?_handling {reading : Reading} (hconfig : config.Plain)
    (hreading : Reading.ofBody t { baseDir := base, citingFile := source } body = .ok reading) :
    failure? (handling t config base source body) = reading.failure? t config := by
  rw [handling, hconfig.recursive, resolveSegment, Traced.outcome_bind, Traced.outcome_lift, hreading]
  exact failure?_resolveReading t config _ _ reading _ rfl hconfig.lenient

theorem file_of_failure?_handling {reading : Reading} {complaint : Complaint} (hconfig : config.Plain)
    (hreading : Reading.ofBody t { baseDir := base, citingFile := source } body = .ok reading)
    (h : failure? (handling t config base source body) = some (.citation complaint)) : complaint.file = none := by
  rw [failure?_handling hconfig hreading] at h
  cases reading with
  | prose => cases h
  | dangling c => cases h
  | faulty token reason =>
    obtain rfl := Failure.citation.inj (Option.some.inj h)
    rfl
  | found c target =>
    cases hexcerpt : t.excerpt config.encoding c target with
    | ok quote => cases hmargin : config.checkMargin <;> simp [Reading.failure?, hexcerpt, hmargin] at h
    | error failure =>
      obtain rfl : failure = .citation complaint := by simpa [Reading.failure?, hexcerpt] using h
      exact (Tree.complaint_of_excerpt hexcerpt).1

theorem checkMargin_of_failure?_handling {reading : Reading} {fault : Fault} (hconfig : config.Plain)
    (hreading : Reading.ofBody t { baseDir := base, citingFile := source } body = .ok reading)
    (h : failure? (handling t config base source body) = some (.fault fault)) : config.checkMargin = .error fault := by
  rw [failure?_handling hconfig hreading] at h
  cases reading with
  | prose => cases h
  | dangling c => cases h
  | faulty token reason => cases h
  | found c target =>
    obtain ⟨charset, hnamed, hcharset⟩ := hconfig.named
    have hfile : t.isFile target = true := Context.isFile_of_locate (Reading.describes_of_ofBody hreading).2
    cases hexcerpt : t.excerpt config.encoding c target with
    | ok quote => cases hmargin : config.checkMargin <;> simp_all [Reading.failure?]
    | error failure =>
      obtain rfl : failure = .fault fault := by simpa [Reading.failure?, hexcerpt] using h
      exact absurd hexcerpt (Tree.excerpt_ne_fault hnamed hcharset hfile fault)

theorem exists_ofBody (hread : t.read source = .ok content) (hfit : Citation.NumberFieldsFit body) :
    ∃ reading, Reading.ofBody t { baseDir := base, citingFile := source } body = .ok reading := by
  refine Reading.exists_ofBody (Tree.isDir_of_read hread) ?_
  intro count hparse
  exact Citation.isOwnReason_of_parse hfit hparse

/-- Checking says about a marker what there is to report. -/
theorem problem?_eq {reading : Reading} (hconfig : config.Plain)
    (hreading : Reading.ofBody t { baseDir := base, citingFile := source } body = .ok reading) :
    problem? t config reading = .ok (expected? t config base source body) := by
  have hfailure := failure?_handling hconfig hreading
  have hdescribes := Reading.describes_of_ofBody hreading
  rw [expected?, raised?, hfailure]
  cases reading with
  | prose =>
    obtain ⟨⟨token, reason, hparse⟩, -⟩ := hdescribes
    simp [problem?, Reading.failure?, danglesAsPath, hparse]
  | faulty token reason => rfl
  | dangling c =>
    obtain ⟨hparse, hlocate⟩ := hdescribes
    simp [problem?, Reading.failure?, danglesAsPath, hparse, hlocate, missingFile]
  | found c target =>
    obtain ⟨hparse, hlocate⟩ := hdescribes
    have hthere : danglesAsPath t base source body = false := by simp [danglesAsPath, hparse, hlocate]
    rw [problem?]
    cases hexcerpt : t.excerpt config.encoding c target with
    | ok quote =>
      rw [Reading.failure?, hexcerpt]
      cases config.checkMargin <;> simp [hthere, Failure.error?]
    | error failure =>
      rw [Reading.failure?, hexcerpt]
      cases failure with
      | fault fault =>
        obtain ⟨charset, hnamed, hcharset⟩ := hconfig.named
        exact absurd hexcerpt (Tree.excerpt_ne_fault hnamed hcharset (Context.isFile_of_locate hlocate) fault)
      | citation complaint =>
        have hreport := report_of_not_isMalformed (Tree.complaint_of_excerpt hexcerpt).2.not_isMalformed
        simp [Failure.error?, hreport]

theorem message_of_expectedIssue? {marker : Nat × Text} {issue : Issue}
    (hnone : raised? t config base source marker.2 = none) (h : expectedIssue? t config base source marker = some issue) :
    issue.message = missingFile := by
  rw [expectedIssue?, expected?, hnone] at h
  obtain ⟨words, hwords, rfl⟩ := Option.map_eq_some_iff.1 h
  exact (Option.some.inj (Option.ite_none_right_eq_some.1 hwords).2).symm

/-- What resolving raises at a marker is never reported in the words for a missing file. -/
theorem report_ne_missingFile {e : CitationError} (hconfig : config.Plain) (hread : t.read source = .ok content)
    (hfit : Citation.NumberFieldsFit body) (h : raised? t config base source body = some e) : e.report ≠ missingFile := by
  obtain ⟨reading, hreading⟩ := exists_ofBody hread hfit
  have hdescribes := Reading.describes_of_ofBody hreading
  rw [raised?, failure?_handling hconfig hreading] at h
  cases reading with
  | prose => cases h
  | dangling c => cases h
  | faulty token reason =>
    obtain rfl : .malformed token reason = e := Option.some.inj h
    have hown : Citation.ParseError.IsOwnReason (.malformed token reason) := Citation.isOwnReason_of_parse hfit hdescribes.1
    refine (startsOtherwise_message ?_).ne_missingFile
    rintro words rfl
    exact hown
  | found c target =>
    rw [Reading.failure?] at h
    cases hexcerpt : t.excerpt config.encoding c target with
    | ok quote => cases hmargin : config.checkMargin <;> simp [hexcerpt, hmargin, Failure.error?] at h
    | error failure =>
      cases failure with
      | fault fault => simp [hexcerpt, Failure.error?] at h
      | citation complaint =>
        obtain rfl : complaint.error = e := by simpa [hexcerpt, Failure.error?] using h
        rw [report_of_not_isMalformed (Tree.complaint_of_excerpt hexcerpt).2.not_isMalformed]
        exact (startsOtherwise_describe _).ne_missingFile

/-! ### All markers -/

theorem issue?_marker (hconfig : config.Plain) (hread : t.read source = .ok content) (hfit : Citation.NumberFieldsFit body)
    (number : Nat) :
    issue? t config { baseDir := base, citingFile := source } number (.marker body) =
      .ok (expectedIssue? t config base source (number, body)) := by
  obtain ⟨reading, hreading⟩ := exists_ofBody hread hfit
  rw [issue?, hreading]
  change (problem? t config reading >>= fun problem => pure (problem.map _)) = _
  rw [problem?_eq hconfig hreading]
  rfl

theorem lineIssues_eq {line : Text} (hconfig : config.Plain) (hread : t.read source = .ok content)
    (hfit : ∀ body ∈ Segment.markers line, Citation.NumberFieldsFit body) (number : Nat) :
    lineIssues t config { baseDir := base, citingFile := source } number line =
      .ok (((Segment.markers line).map fun body => (number, body)).filterMap (expectedIssue? t config base source)) := by
  have hsegments : ∀ segment ∈ Segment.split line,
      issue? t config { baseDir := base, citingFile := source } number segment =
        .ok (segment.body?.bind fun body => expectedIssue? t config base source (number, body)) := by
    intro segment hsegment
    cases segment with
    | text content => rfl
    | marker body => exact issue?_marker hconfig hread (hfit body (List.mem_filterMap.2 ⟨_, hsegment, rfl⟩)) number
  rw [lineIssues, mapM_eq_ok hsegments]
  change Except.ok _ = _
  apply congrArg Except.ok
  change ((Segment.split line).map _).filterMap id = _
  rw [List.filterMap_map, List.filterMap_map, Segment.markers, List.filterMap_filterMap]
  rfl

theorem issuesFrom_eq {lines : List Text} (hconfig : config.Plain) (hread : t.read source = .ok content) (start : Nat)
    (hfit : ∀ marker ∈ Segment.numberedMarkers start lines, Citation.NumberFieldsFit marker.2) :
    issuesFrom t config { baseDir := base, citingFile := source } start lines =
      .ok ((Segment.numberedMarkers start lines).filterMap (expectedIssue? t config base source)) := by
  induction lines generalizing start with
  | nil => rfl
  | cons line rest ih =>
    rw [Segment.numberedMarkers_cons] at hfit ⊢
    have hline : ∀ body ∈ Segment.markers line, Citation.NumberFieldsFit body := fun body hbody =>
      hfit (start, body) (List.mem_append_left _ (List.mem_map.2 ⟨body, hbody, rfl⟩))
    have hrest := ih (start + 1) fun marker hmarker => hfit marker (List.mem_append_right _ hmarker)
    rw [issuesFrom, lineIssues_eq hconfig hread hline, hrest, List.filterMap_append]
    rfl

end

/-! ### The first issue -/

section

variable {t : Tree} {config : Config} {base file : Path} {lines : List Text}

theorem checkFile_eq (hconfig : config.Plain) (hlines : t.citedLines config.encoding (base.within file) = .ok lines)
    (hfit : ∀ marker ∈ Segment.numberedMarkers 1 lines, Citation.NumberFieldsFit marker.2) :
    checkFile t config base file =
      .ok ((Segment.numberedMarkers 1 lines).filterMap (expectedIssue? t config base (base.within file))) := by
  obtain ⟨content, hread⟩ := Tree.exists_read_of_citedLines hlines
  rw [checkFile, hlines]
  exact issuesFrom_eq hconfig hread 1 hfit

/-- The failure of a file is that of one of its markers, and the markers before that one are handled without any. -/
theorem exists_first_of_resolveFile {failure : Failure} (hlines : t.citedLines config.encoding (base.within file) = .ok lines)
    (h : (resolveFile t config base file).outcome = .error failure) :
    ∃ earlier marker later own, Segment.numberedMarkers 1 lines = earlier ++ marker :: later ∧
      (∀ other ∈ earlier, failure? (handling t config base (base.within file) other.2) = none) ∧
      failure? (handling t config base (base.within file) marker.2) = some own ∧ failure = own.inFile (base.within file) := by
  have hfirst := failure?_resolveFile hlines
  rw [failure?_eq_some_iff.2 h] at hfirst
  obtain ⟨own, hown, hfailure⟩ := Option.map_eq_some_iff.1 hfirst.symm
  obtain ⟨earlier, marker, later, hmarkers, hmarker, hearlier⟩ := List.findSome?_eq_some_iff.1 hown
  exact ⟨earlier, marker, later, own, hmarkers, hearlier, hmarker, hfailure.symm⟩

theorem checkMargin_of_resolveFile {fault : Fault} (hconfig : config.Plain)
    (hlines : t.citedLines config.encoding (base.within file) = .ok lines)
    (hfit : ∀ marker ∈ Segment.numberedMarkers 1 lines, Citation.NumberFieldsFit marker.2)
    (h : (resolveFile t config base file).outcome = .error (.fault fault)) : config.checkMargin = .error fault := by
  obtain ⟨content, hread⟩ := Tree.exists_read_of_citedLines hlines
  obtain ⟨earlier, marker, later, own, hmarkers, -, hown, hfailure⟩ := exists_first_of_resolveFile hlines h
  obtain ⟨reading, hreading⟩ := exists_ofBody hread (hfit marker (by simp [hmarkers]))
  cases own with
  | citation complaint => cases hfailure
  | fault cause =>
    obtain rfl := Failure.fault.inj hfailure
    exact checkMargin_of_failure?_handling hconfig hreading hown

/-- Resolving raises a citation error at the marker of the first issue that is not about a missing file. -/
theorem find?_of_resolveFile {complaint : Complaint} (hconfig : config.Plain)
    (hlines : t.citedLines config.encoding (base.within file) = .ok lines)
    (hfit : ∀ marker ∈ Segment.numberedMarkers 1 lines, Citation.NumberFieldsFit marker.2)
    (h : (resolveFile t config base file).outcome = .error (.citation complaint)) :
    ∃ marker e, marker ∈ Segment.numberedMarkers 1 lines ∧ raised? t config base (base.within file) marker.2 = some e ∧
      complaint = ⟨e, some (base.within file)⟩ ∧
      ((Segment.numberedMarkers 1 lines).filterMap (expectedIssue? t config base (base.within file))).find?
        (fun issue => issue.message ≠ missingFile) = some (issueAt (base.within file) marker e.report) := by
  obtain ⟨content, hread⟩ := Tree.exists_read_of_citedLines hlines
  obtain ⟨earlier, marker, later, own, hmarkers, hearlier, hown, hfailure⟩ := exists_first_of_resolveFile hlines h
  have hmem : marker ∈ Segment.numberedMarkers 1 lines := by simp [hmarkers]
  obtain ⟨reading, hreading⟩ := exists_ofBody hread (hfit marker hmem)
  cases own with
  | fault cause => cases hfailure
  | citation cause =>
    have hfile : cause.file = none := file_of_failure?_handling hconfig hreading hown
    have hraised : raised? t config base (base.within file) marker.2 = some cause.error := by
      rw [raised?, hown]
      rfl
    have hreport : cause.error.report ≠ missingFile := report_ne_missingFile hconfig hread (hfit marker hmem) hraised
    refine ⟨marker, cause.error, hmem, hraised, ?_, ?_⟩
    · rw [Failure.citation.inj hfailure, Complaint.inFile, hfile]
      rfl
    · have hissue : expectedIssue? t config base (base.within file) marker =
          some (issueAt (base.within file) marker cause.error.report) := by
        rw [expectedIssue?, expected?, hraised]
        rfl
      have hskipped : ((earlier.filterMap (expectedIssue? t config base (base.within file))).find?
          fun issue => issue.message ≠ missingFile) = none := by
        rw [List.find?_eq_none]
        intro issue hmem
        obtain ⟨other, hother, hissue⟩ := List.mem_filterMap.1 hmem
        have hnone : raised? t config base (base.within file) other.2 = none := by rw [raised?, hearlier other hother]; rfl
        simp [message_of_expectedIssue? hnone hissue]
      rw [hmarkers, List.filterMap_append, List.find?_append, hskipped, List.filterMap_cons_some hissue, Option.none_or]
      exact List.find?_cons_of_pos (decide_eq_true hreport)

theorem exists_complaint_of_issue {issue : Issue} (hlines : t.citedLines config.encoding (base.within file) = .ok lines)
    (hfault : ∀ fault, (resolveFile t config base file).outcome ≠ .error (.fault fault))
    (hissue : issue ∈ (Segment.numberedMarkers 1 lines).filterMap (expectedIssue? t config base (base.within file)))
    (hmessage : issue.message ≠ missingFile) :
    ∃ complaint, (resolveFile t config base file).outcome = .error (.citation complaint) := by
  obtain ⟨marker, hmarker, hexpected⟩ := List.mem_filterMap.1 hissue
  cases houtcome : (resolveFile t config base file).outcome with
  | error failure =>
    cases failure with
    | citation complaint => exact ⟨complaint, rfl⟩
    | fault fault => exact absurd houtcome (hfault fault)
  | ok resolved =>
    have hfirst := failure?_resolveFile hlines
    rw [houtcome, failure?_ok, eq_comm, Option.map_eq_none_iff, List.findSome?_eq_none_iff] at hfirst
    have hnone : raised? t config base (base.within file) marker.2 = none := by
      rw [raised?, handling, hfirst marker hmarker]
      rfl
    exact absurd (message_of_expectedIssue? hnone hexpected) hmessage

/-- Checking reports what resolving raises at each marker, and what looks like a path to a missing file. Resolving a file raises the error of the first issue of the other kind, unless it ends earlier because the margin for quotes cannot be made. -/
theorem checkFile_agrees_with_resolveFile (hconfig : config.Plain)
    (hlines : t.citedLines config.encoding (base.within file) = .ok lines)
    (hfit : ∀ marker ∈ Segment.numberedMarkers 1 lines, Citation.NumberFieldsFit marker.2) :
    ∃ issues, checkFile t config base file = .ok issues ∧
      issues = (Segment.numberedMarkers 1 lines).filterMap (expectedIssue? t config base (base.within file)) ∧
      (∀ fault, (resolveFile t config base file).outcome = .error (.fault fault) → config.checkMargin = .error fault) ∧
      ((∀ fault, (resolveFile t config base file).outcome ≠ .error (.fault fault)) →
        ((∃ complaint, (resolveFile t config base file).outcome = .error (.citation complaint)) ↔
            ∃ issue ∈ issues, issue.message ≠ missingFile) ∧
          ∀ issue, issues.find? (fun issue => issue.message ≠ missingFile) = some issue →
            ∃ marker e, marker ∈ Segment.numberedMarkers 1 lines ∧
              raised? t config base (base.within file) marker.2 = some e ∧
              issue = issueAt (base.within file) marker e.report ∧
              (resolveFile t config base file).outcome = .error (.citation ⟨e, some (base.within file)⟩)) := by
  refine ⟨_, checkFile_eq hconfig hlines hfit, rfl, fun fault => checkMargin_of_resolveFile hconfig hlines hfit, ?_⟩
  intro hfault
  refine ⟨⟨?_, ?_⟩, ?_⟩
  · rintro ⟨complaint, hcomplaint⟩
    obtain ⟨marker, e, -, -, -, hfind⟩ := find?_of_resolveFile hconfig hlines hfit hcomplaint
    exact ⟨_, List.mem_of_find?_eq_some hfind, by simpa using List.find?_some hfind⟩
  · rintro ⟨issue, hissue, hmessage⟩
    exact exists_complaint_of_issue hlines hfault hissue hmessage
  · intro issue hissue
    have hmessage : issue.message ≠ missingFile := by simpa using List.find?_some hissue
    obtain ⟨complaint, hcomplaint⟩ := exists_complaint_of_issue hlines hfault (List.mem_of_find?_eq_some hissue) hmessage
    obtain ⟨marker, e, hmarker, hraised, rfl, hfind⟩ := find?_of_resolveFile hconfig hlines hfit hcomplaint
    exact ⟨marker, e, hmarker, hraised, Option.some.inj (hissue.symm.trans hfind), hcomplaint⟩

def exampleTree : Tree :=
  ⟨[], .file "d.md".toList (Charset.Utf8.encode "[e] [e:9]".toList) (.file "e".toList (Charset.Utf8.encode "x".toList) .empty)⟩

theorem plain_of_indent (width : Int) : Config.Plain { indent := width } :=
  ⟨rfl, rfl, .utf8, Charset.namedBy_utf8, by decide⟩

theorem numberFieldsFit_exampleTree :
    ∀ marker ∈ Segment.numberedMarkers 1 ["[e] [e:9]".toList], Citation.NumberFieldsFit marker.2 := by
  have hshort : ∀ marker ∈ Segment.numberedMarkers 1 ["[e] [e:9]".toList], marker.2.length ≤ Text.digitLimit := by decide +kernel
  exact fun marker hmarker => Citation.numberFieldsFit_of_length_le (hshort marker hmarker)

theorem checkFile_agrees_on_exampleTree :
    exampleTree.citedLines (some "utf-8".toList) (Path.here.within (Path.ofText "d.md".toList)) = .ok ["[e] [e:9]".toList] ∧
      checkFile exampleTree {} Path.here (Path.ofText "d.md".toList) =
        .ok [⟨"d.md".toList, 1, "[e:9]".toList, "Line 9 out of range for e (1 lines)"⟩] ∧
      ∃ complaint, (resolveFile exampleTree {} Path.here (Path.ofText "d.md".toList)).outcome = .error (.citation complaint) := by
  have hlines : exampleTree.citedLines (some "utf-8".toList) (Path.here.within (Path.ofText "d.md".toList)) =
    .ok ["[e] [e:9]".toList] := by decide +kernel
  have hissues : checkFile exampleTree {} Path.here (Path.ofText "d.md".toList) =
    .ok [⟨"d.md".toList, 1, "[e:9]".toList, "Line 9 out of range for e (1 lines)"⟩] := by decide +kernel
  obtain ⟨issues, hcheck, -, hmargin, hagree⟩ :=
    checkFile_agrees_with_resolveFile (plain_of_indent 0) hlines numberFieldsFit_exampleTree
  obtain rfl := Except.ok.inj (hcheck.symm.trans hissues)
  have hfault : ∀ fault, (resolveFile exampleTree {} Path.here (Path.ofText "d.md".toList)).outcome ≠ .error (.fault fault) := by
    intro fault h
    cases hmargin fault h
  exact ⟨hlines, hissues, (hagree hfault).1.2 ⟨_, List.mem_singleton_self _, by decide⟩⟩

/-- With a margin too wide to count, the quote before the faulty citation ends the run, and the citation error is not raised. -/
theorem exists_issue_without_citation_error :
    ∃ (t : Tree) (config : Config) (base file : Path) (lines : List Text) (issues : List Issue), config.Plain ∧
      t.citedLines config.encoding (base.within file) = .ok lines ∧
      (∀ marker ∈ Segment.numberedMarkers 1 lines, Citation.NumberFieldsFit marker.2) ∧
      checkFile t config base file = .ok issues ∧ (∃ issue ∈ issues, issue.message ≠ missingFile) ∧
      ∀ complaint, (resolveFile t config base file).outcome ≠ .error (.citation complaint) := by
  refine ⟨exampleTree, { indent := 2 ^ 63 }, Path.here, Path.ofText "d.md".toList, ["[e] [e:9]".toList],
    [⟨"d.md".toList, 1, "[e:9]".toList, "Line 9 out of range for e (1 lines)"⟩], plain_of_indent _, by decide +kernel,
    numberFieldsFit_exampleTree, by decide +kernel, ⟨_, List.mem_singleton_self _, by decide⟩, ?_⟩
  have hfault : (resolveFile exampleTree { indent := 2 ^ 63 } Path.here (Path.ofText "d.md".toList)).outcome =
    .error (.fault .marginUncountable) := by decide +kernel
  intro complaint h
  cases hfault.symm.trans h

end

end Check

end Quotation
