import Quotation.Proofs.Text.Layout
import Quotation.Proofs.Tree.Faults
import Quotation.Resolution.Document

/-!
# The characters of a resolved text

A resolved text is made of the text itself, of lines of cited files, and of what laying out adds. So a property of characters that all of these have is one of the whole result (`gives_resolveLine`), however deep quotes are nested. On the way nothing is encoded, and no failure is one of encoding.
-/

namespace Quotation

open Outcome

variable {P : Char → Prop} {t : Tree} {config : Config} {ctx : Context}

/-- Everything that can get into a resolved text has the property: what laying out adds and what can be read from files. -/
structure Supplies (P : Char → Prop) (t : Tree) (config : Config) : Prop where
  layout : ∀ c ∈ Config.layoutCharacters, P c
  cited : ∀ p lines, t.citedLines config.encoding p = .ok lines → ∀ line ∈ lines, ∀ c ∈ line, P c

/-- The computation gives text whose characters have the property, or fails for another reason than a lacking character. -/
def Gives (P : Char → Prop) (x : Except Failure Text) : Prop := Ends (fun text => ∀ c ∈ text, P c) Failure.NotEncoding x

theorem Supplies.break (h : Supplies P t config) : P '\n' := h.layout _ (by decide)

/-! ### Quotes -/

theorem ends_citedLines (h : Supplies P t config) (p : Path) :
    Ends (fun lines => ∀ line ∈ lines, ∀ c ∈ line, P c) Failure.NotEncoding (t.citedLines config.encoding p) :=
  (t.ends_citedLines p config.encoding).imp fun lines hlines _ => h.cited p lines hlines

theorem gives_excerpt (h : Supplies P t config) (c : Citation) (target : Path) : Gives P (t.excerpt config.encoding c target) := by
  refine (ends_citedLines h target).bind fun lines hlines => ?_
  cases hextract : Excerpt.extract lines c with
  | error e => exact e.notEncoding_failure
  | ok quote =>
    intro d hd
    obtain rfl | ⟨line, hline, hd⟩ := Excerpt.mem_of_extract hextract d hd
    · exact h.break
    · exact hlines line hline d hd

theorem ends_checkMargin (config : Config) : Ends (fun _ => True) Fault.NotText config.checkMargin := by
  rw [Config.checkMargin]
  split
  · exact trivial
  · split
    · exact trivial
    · exact trivial

theorem gives_layOut {quote : Text} (h : Supplies P t config) (hquote : ∀ c ∈ quote, P c) :
    Gives P ((config.layOut quote).mapError .fault) := by
  have hlaidOut : ∀ c ∈ config.laidOut quote, P c := Config.forall_mem_laidOut h.layout hquote
  exact ((ends_checkMargin config).map fun _ _ => hlaidOut).mapError fun _ hfault => hfault.notEncoding.failure

/-! ### Markers -/

theorem ends_note (event : Event) : Ends (fun _ => True) Failure.NotEncoding (Traced.note event).outcome := trivial

theorem ends_locate (t : Tree) (ctx : Context) (ref : Text) : Ends (fun _ => True) Fault.NotText (ctx.locate t ref) := by
  have hciting : Ends (fun _ => True) Fault.NotText (ctx.citingDir t) := by
    refine (t.ends_isDir ctx.citingFile).bind fun there _ => ?_
    cases there <;> exact trivial
  have hcandidates : Ends (fun _ => True) Fault.NotText (ctx.candidates t ref) := by
    rw [Context.candidates]
    split
    · exact trivial
    · exact hciting.map fun _ _ => trivial
  exact hcandidates.map fun _ _ => trivial

theorem ends_ofBody (t : Tree) (ctx : Context) (body : Text) : Ends (fun _ => True) Fault.NotText (Reading.ofBody t ctx body) := by
  rw [Reading.ofBody]
  split
  · exact (ends_locate t ctx _).map fun _ _ => trivial
  · exact trivial
  · exact (ends_locate t ctx _).map fun _ _ => trivial

/-- Going on with a quote gives characters that have the property where those of the quote have it. -/
def Descent.Keeps (P : Char → Prop) (descend : Descent) : Prop :=
  ∀ marker ctx quote, (∀ c ∈ quote, P c) → Gives P (descend marker ctx quote).outcome

section

variable {descend : Descent}

theorem gives_resolveReading {marker : Text} (h : Supplies P t config) (hdescend : descend.Keeps P) (hmarker : ∀ c ∈ marker, P c)
    (reading : Reading) : Gives P (resolveReading t config descend ctx marker reading).outcome := by
  cases reading with
  | prose => exact hmarker
  | faulty token reason => exact (CitationError.malformed token reason).notEncoding_failure
  | dangling c =>
    rw [resolveReading]
    split
    · exact (CitationError.unresolved marker (Path.ofText c.ref)).notEncoding_failure
    · exact hmarker
  | found c target =>
    rw [resolveReading]
    refine Traced.ends_bind (ends_note _) fun _ _ => ?_
    refine Traced.ends_bind (gives_excerpt h c target) fun quote hquote => ?_
    dsimp only
    split
    · exact Traced.ends_bind (hdescend marker _ quote hquote) fun resolved hresolved => gives_layOut h hresolved
    · exact gives_layOut h hquote

theorem gives_resolveSegment {segment : Segment} (h : Supplies P t config) (hdescend : descend.Keeps P)
    (hsegment : ∀ c ∈ segment.toText, P c) : Gives P (resolveSegment t config descend ctx segment).outcome := by
  cases segment with
  | text content => exact hsegment
  | marker body =>
    have hreading := (ends_ofBody t ctx body).mapError fun fault hfault => hfault.notEncoding.failure
    exact Traced.ends_bind hreading fun reading _ => gives_resolveReading h hdescend hsegment reading

theorem Segment.mem_of_mem_split {line : Text} {segment : Segment} {c : Char} (h : segment ∈ split line)
    (hc : c ∈ segment.toText) : c ∈ line := by
  rw [← joinAll_split line]
  exact List.mem_flatMap.2 ⟨segment, h, hc⟩

theorem gives_resolveLine {line : Text} (h : Supplies P t config) (hdescend : descend.Keeps P) (hline : ∀ c ∈ line, P c) :
    Gives P (resolveLine t config descend ctx line).outcome := by
  have hsegments : ∀ segment ∈ Segment.split line, Gives P (resolveSegment t config descend ctx segment).outcome :=
    fun segment hsegment => gives_resolveSegment h hdescend fun c hc => hline c (Segment.mem_of_mem_split hsegment hc)
  rw [resolveLine, Traced.outcome_map, Traced.outcome_mapM]
  refine (Ends.mapM hsegments).map fun pieces hpieces c hc => ?_
  obtain ⟨piece, hpiece, hc⟩ := List.mem_flatten.1 hc
  exact hpieces piece hpiece c hc

theorem gives_resolveLines {text : Text} (h : Supplies P t config) (hdescend : descend.Keeps P) (htext : ∀ c ∈ text, P c) :
    Gives P (resolveLines t config descend ctx text).outcome := by
  have hlines : ∀ line ∈ Text.splitOn '\n' text, Gives P (resolveLine t config descend ctx line).outcome :=
    fun line hline => gives_resolveLine h hdescend fun c hc => htext c (Text.mem_of_mem_splitOn hline hc)
  rw [resolveLines, Traced.outcome_map, Traced.outcome_mapM]
  exact (Ends.mapM hlines).map fun pieces hpieces => Text.forall_mem_join h.break hpieces

end

theorem keeps_resolveQuote (h : Supplies P t config) (budget : Nat) : (resolveQuote t config budget).Keeps P := by
  induction budget with
  | zero =>
    intro marker ctx quote _
    exact (CitationError.tooDeep marker config.maxDepth).notEncoding_failure
  | succ budget ih =>
    intro marker ctx quote hquote
    exact Traced.ends_bind (ends_note _) fun _ _ => gives_resolveLines h ih hquote

/-! ### Files -/

/-- The lines of a file and what they are resolved to: no line is lost, and none holds a line feed. -/
theorem ends_resolveSource (h : Supplies P t config) (base source : Path) :
    Ends (fun lines => t.citedLines config.encoding source = .ok lines.1 ∧ (lines.1 ≠ [] → lines.2 ≠ []) ∧
      ∀ line ∈ lines.2, ∀ c ∈ line, P c ∧ c ≠ '\n') Failure.NotEncoding (resolveSource t config base source).outcome := by
  have hread : Ends (fun lines => t.citedLines config.encoding source = .ok lines) Failure.NotEncoding
      (t.citedLines config.encoding source) :=
    (t.ends_citedLines source config.encoding).imp fun lines hlines _ => hlines
  rw [resolveSource]
  refine Traced.ends_bind hread fun lines hlines => ?_
  have hresolved : Ends (fun resolved => (lines ≠ [] → resolved ≠ []) ∧ ∀ text ∈ resolved, ∀ c ∈ text, P c) Failure.NotEncoding
      (lines.mapM (resolveLine t config (resolveNested t config)
        { baseDir := base, citingFile := source, recursive := config.recursive })).outcome := by
    rw [Traced.outcome_mapM]
    refine (Ends.mapM fun line hline => gives_resolveLine h (keeps_resolveQuote h _) (h.cited source lines hlines line hline)).imp
      fun resolved hmapM hall => ⟨?_, hall⟩
    rintro hne rfl
    cases forall₂_of_mapM hmapM
    exact hne rfl
  refine Traced.ends_bind hresolved fun resolved hresolved => ⟨hlines, ?_, ?_⟩
  · intro hne hnil
    obtain ⟨first, rest, rfl⟩ := List.exists_cons_of_ne_nil (hresolved.1 hne)
    exact Text.splitOn_ne_nil '\n' first (List.flatMap_eq_nil_iff.1 hnil first (by simp))
  · intro line hline c hc
    obtain ⟨text, htext, hpiece⟩ := List.mem_flatMap.1 hline
    refine ⟨hresolved.2 text htext c (Text.mem_of_mem_splitOn hpiece hc), ?_⟩
    rintro rfl
    exact Text.not_mem_of_mem_splitOn hpiece hc

theorem resolveFile_ne_encoding (h : Supplies P t config) (base file : Path) (e : Charset.EncodeError) :
    (resolveFile t config base file).outcome ≠ .error (.fault (.encoding e)) := by
  intro hfault
  have hends := ends_resolveSource h base (base.within file)
  rw [resolveFile] at hfault
  cases houtcome : (resolveSource t config base (base.within file)).outcome with
  | ok lines => simp [houtcome, Except.map, Except.mapError] at hfault
  | error failure =>
    rw [houtcome] at hends hfault
    cases failure with
    | citation complaint => simp [Except.map, Except.mapError, Failure.inFile] at hfault
    | fault fault =>
      obtain rfl : fault = .encoding e := by simpa [Except.map, Except.mapError, Failure.inFile] using hfault
      exact hends.elim

/-- What a resolved file holds: its lines are those of the source unless it has changed, and then there are some. -/
theorem exists_of_resolveFile {base file : Path} {resolved : Resolved} (h : Supplies P t config)
    (hresolve : (resolveFile t config base file).outcome = .ok resolved) :
    resolved.source = base.within file ∧
      ∃ before, t.citedLines config.encoding resolved.source = .ok before ∧
        (resolved.changed = false → resolved.lines = before) ∧ (resolved.changed = true → resolved.lines ≠ []) ∧
        ∀ line ∈ resolved.lines, ∀ c ∈ line, P c ∧ c ≠ '\n' := by
  rw [resolveFile, mapError_eq_ok_iff, map_eq_ok_iff] at hresolve
  obtain ⟨⟨before, after⟩, houtcome, rfl⟩ := hresolve
  obtain ⟨hbefore, hne, hafter⟩ := (ends_resolveSource h base (base.within file)).of_ok houtcome
  refine ⟨rfl, before, hbefore, ?_, ?_, hafter⟩
  · intro hchanged
    simpa using hchanged
  · intro hchanged
    have hdiffer : after ≠ before := by simpa using hchanged
    rintro (hnil : after = [])
    have hempty : before = [] := by
      by_contra hsome
      exact hne hsome hnil
    exact hdiffer (hnil.trans hempty.symm)

end Quotation
