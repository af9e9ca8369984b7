import Quotation.Proofs.Resolution.Met
import Quotation.Proofs.Text.Lines

/-!
# Citations within quotes

Following a citation leads to the lines that it quotes, and these may cite in their turn (`Leads`). What resolving fails with is raised at a marker that it meets (`RaisedAt`), for one of two causes (`exists_cause_of_error`): the marker fails by itself (`ownFailure?`), or as many citations have been followed as there may be, and the last quote has a marker again. The second cause looks at brackets only: the marker may be prose or name a missing file (`exists_tooDeep_at_missing_file`).
-/

namespace Quotation

open Outcome

/-! ### Quotes with markers -/

/-- No character of an excerpt from a file breaks lines, other than a line feed. -/
theorem Tree.eq_lineFeed_of_extract {t : Tree} {p : Path} {encoding : Option Text} {lines : List Text} {c : Citation} {quote : Text}
    (hlines : t.readLines p encoding = .ok lines) (h : Excerpt.extract lines c = .ok quote) :
    ∀ d ∈ quote, Text.isBreak d = true → d = '\n' := by
  obtain ⟨text, -, rfl⟩ := readLines_eq_ok_iff.1 hlines
  intro d hd hbreak
  obtain hd | ⟨line, hline, hd⟩ := Excerpt.mem_of_extract h d hd
  · exact hd
  · simp [Text.not_isBreak_of_mem_lines _ line hline d hd] at hbreak

theorem Tree.eq_lineFeed_of_excerpt {t : Tree} {encoding : Option Text} {c : Citation} {target : Path} {quote : Text}
    (h : t.excerpt encoding c target = .ok quote) : ∀ d ∈ quote, Text.isBreak d = true → d = '\n' := by
  obtain ⟨lines, hlines, hextract⟩ := bind_eq_ok_iff.1 h
  exact eq_lineFeed_of_extract (citedLines_eq_ok_iff.1 hlines) (mapError_eq_ok_iff.1 hextract)

namespace Segment

theorem any_isMarker_iff (line : Text) : (split line).any isMarker = true ↔ markers line ≠ [] := by
  rw [markers, Ne, List.filterMap_eq_nil_iff, List.any_eq_true]
  push Not
  refine exists_congr fun segment => and_congr_right fun _ => ?_
  cases segment <;> simp [isMarker, body?]

@[simp] theorem markers_nil : markers [] = [] := rfl

/-- A text whose only breaks are line feeds has markers exactly if one of its pieces has one. -/
theorem hasMarkers_iff {t : Text} (h : ∀ c ∈ t, Text.isBreak c = true → c = '\n') :
    hasMarkers t = true ↔ (Text.splitOn '\n' t).flatMap markers ≠ [] := by
  have hlines : hasMarkers t = true ↔ (Text.lines t).flatMap markers ≠ [] := by
    rw [hasMarkers, List.any_eq_true, Ne, List.flatMap_eq_nil_iff]
    push Not
    exact exists_congr fun line => and_congr_right fun _ => any_isMarker_iff line
  obtain hpieces | hpieces := Text.splitOn_eq_lines_or h
  · rw [hlines, hpieces]
  · rw [hlines, hpieces, List.flatMap_append]
    simp

end Segment

/-! ### Following citations -/

structure Link where
  body : Text
  citation : Citation
  target : Path

/-- The marker stands in the lines, reads as the citation, and leads to the file. -/
structure Link.StandsIn (t : Tree) (ctx : Context) (lines : List Text) (link : Link) : Prop where
  mem : link.body ∈ lines.flatMap Segment.markers
  parse : Citation.parse link.body = .ok link.citation
  locate : ctx.locate t link.citation.ref = .ok (some link.target)

/-- Citations, each of which stands in what the one before quotes, lead from the lines in `ctx` to those in `inner`. -/
inductive Leads (t : Tree) (config : Config) : Context → List Text → List Link → Context → List Text → Prop where
  | refl (ctx : Context) (lines : List Text) : Leads t config ctx lines [] ctx lines
  | step {ctx inner : Context} {lines inside : List Text} {link : Link} {links : List Link} {quote : Text}
      (stands : link.StandsIn t ctx lines) (quoted : t.excerpt config.encoding link.citation link.target = .ok quote)
      (rest : Leads t config (ctx.nested link.target) (Text.splitOn '\n' quote) links inner inside) :
      Leads t config ctx lines (link :: links) inner inside

/-- What resolving fails with at a marker itself, the quotes within its quote aside. -/
def ownFailure? (t : Tree) (config : Config) (ctx : Context) (body : Text) : Option Failure :=
  match Reading.ofBody t ctx body with
  | .error fault => some (.fault fault)
  | .ok (.dangling c) =>
    if config.failOnUnresolved then some (CitationError.unresolved (Segment.marker body).toText (Path.ofText c.ref)).failure
    else none
  | .ok reading => reading.failure? t config

inductive FailsByItself (t : Tree) (config : Config) (ctx : Context) (body : Text) : Failure → Prop where
  | unread {fault : Fault} (unread : Reading.ofBody t ctx body = .error fault) : FailsByItself t config ctx body (.fault fault)
  | faulty {token : Text} {reason : Malformed} (faulty : Reading.ofBody t ctx body = .ok (.faulty token reason)) :
      FailsByItself t config ctx body (CitationError.malformed token reason).failure
  | dangling {c : Citation} (dangling : Reading.ofBody t ctx body = .ok (.dangling c)) (strict : config.failOnUnresolved = true) :
      FailsByItself t config ctx body (CitationError.unresolved (Segment.marker body).toText (Path.ofText c.ref)).failure
  | excerpt {c : Citation} {target : Path} {failure : Failure} (found : Reading.ofBody t ctx body = .ok (.found c target))
      (fails : t.excerpt config.encoding c target = .error failure) : FailsByItself t config ctx body failure
  | margin {c : Citation} {target : Path} {fault : Fault} (found : Reading.ofBody t ctx body = .ok (.found c target))
      (fails : config.checkMargin = .error fault) : FailsByItself t config ctx body (.fault fault)

/-- Resolving raises a failure at a marker: the marker fails by itself, or its quote has markers and may not be followed any more. -/
inductive RaisedAt (t : Tree) (config : Config) (ctx : Context) (body : Text) : Failure → Prop where
  | own {failure : Failure} (fails : ownFailure? t config ctx body = some failure) : RaisedAt t config ctx body failure
  | tooDeep {c : Citation} {target : Path} {quote : Text} (found : Reading.ofBody t ctx body = .ok (.found c target))
      (quoted : t.excerpt config.encoding c target = .ok quote)
      (followed : ctx.recursive = true ∧ Segment.hasMarkers quote = true) :
      RaisedAt t config ctx body (CitationError.tooDeep (Segment.marker body).toText config.maxDepth).failure

variable {t : Tree} {config : Config} {descend : Descent} {ctx inner : Context} {lines inside : List Text} {body quote : Text}
  {c : Citation} {target : Path} {failure : Failure} {link : Link} {budget : Nat} {base file : Path}

theorem Link.StandsIn.ofBody (h : link.StandsIn t ctx lines) :
    Reading.ofBody t ctx link.body = .ok (.found link.citation link.target) := by
  rw [Reading.ofBody, h.parse]
  dsimp only
  rw [Reading.ofCitation, h.locate]
  rfl

theorem Link.StandsIn.eq_of_singleton (h : link.StandsIn t ctx lines) (hbodies : lines.flatMap Segment.markers = [body])
    (hread : Reading.ofBody t ctx body = .ok (.found c target)) : link = ⟨body, c, target⟩ := by
  obtain ⟨other, citation, path⟩ := link
  obtain rfl : other = body := List.mem_singleton.1 (hbodies ▸ h.mem)
  obtain ⟨rfl, rfl⟩ : c = citation ∧ target = path := by simpa [hread] using h.ofBody
  rfl

theorem standsIn_of_ofBody (hmem : body ∈ lines.flatMap Segment.markers) (h : Reading.ofBody t ctx body = .ok (.found c target)) :
    Link.StandsIn t ctx lines ⟨body, c, target⟩ :=
  ⟨hmem, (Reading.describes_of_ofBody h).1, (Reading.describes_of_ofBody h).2⟩

/-! ### What a marker fails with -/

theorem outcome_resolveSegment_of_error (hread : Reading.ofBody t ctx body = .ok (.found c target))
    (hquote : t.excerpt config.encoding c target = .ok quote) (hrecursive : ctx.recursive = true)
    (hmarkers : Segment.hasMarkers quote = true)
    (h : (descend (Segment.marker body).toText (ctx.nested target) quote).outcome = .error failure) :
    (resolveSegment t config descend ctx (.marker body)).outcome = .error failure := by
  simp [resolveSegment, hread, resolveReading, Traced.outcome_bind, hquote, hrecursive, hmarkers, h, Except.mapError]

theorem failure?_found_or_of_error {marker : Text}
    (h : (resolveReading t config descend ctx marker (.found c target)).outcome = .error failure) :
    Reading.failure? t config (.found c target) = some failure ∨
      ∃ quote, t.excerpt config.encoding c target = .ok quote ∧ ctx.recursive = true ∧ Segment.hasMarkers quote = true ∧
        (descend marker (ctx.nested target) quote).outcome = .error failure := by
  simp only [resolveReading, Traced.outcome_bind, Traced.outcome_note, Traced.outcome_lift] at h
  cases hquote : t.excerpt config.encoding c target with
  | error e =>
    rw [hquote] at h
    exact Or.inl (by simp [Reading.failure?, hquote, Except.error.inj h])
  | ok quote =>
    rw [hquote] at h
    have hmargin : ∀ resolved, (config.layOut resolved).mapError .fault = .error failure →
        Reading.failure? t config (.found c target) = some failure := by
      intro resolved hfails
      have hsome := failure?_eq_some_iff.2 hfails
      rw [failure?_mapError, Config.layOut, failure?_map] at hsome
      simpa [Reading.failure?, hquote] using hsome
    dsimp only at h
    split at h
    · next hfollowed =>
      obtain ⟨hrecursive, hmarkers⟩ := Bool.and_eq_true_iff.1 hfollowed
      rw [Traced.outcome_bind] at h
      cases hdescend : (descend marker (ctx.nested target) quote).outcome with
      | ok resolved =>
        rw [hdescend] at h
        exact Or.inl (hmargin resolved h)
      | error e =>
        rw [hdescend] at h
        obtain rfl := Except.error.inj h
        exact Or.inr ⟨quote, rfl, hrecursive, hmarkers, hdescend⟩
    · exact Or.inl (hmargin quote h)

theorem ownFailure?_or_of_error (h : (resolveSegment t config descend ctx (.marker body)).outcome = .error failure) :
    ownFailure? t config ctx body = some failure ∨
      ∃ c target quote, Reading.ofBody t ctx body = .ok (.found c target) ∧ t.excerpt config.encoding c target = .ok quote ∧
        ctx.recursive = true ∧ Segment.hasMarkers quote = true ∧
        (descend (Segment.marker body).toText (ctx.nested target) quote).outcome = .error failure := by
  rw [resolveSegment, Traced.outcome_bind, Traced.outcome_lift] at h
  rw [ownFailure?]
  cases hread : Reading.ofBody t ctx body with
  | error fault =>
    rw [hread] at h
    exact Or.inl (congrArg some (Except.error.inj h))
  | ok reading =>
    rw [hread] at h
    change (resolveReading t config descend ctx (Segment.marker body).toText reading).outcome = _ at h
    cases reading with
    | prose => cases h
    | faulty token reason => exact Or.inl (congrArg some (Except.error.inj h))
    | dangling c =>
      rw [resolveReading] at h
      dsimp only
      split at h
      · next hstrict =>
        rw [if_pos hstrict]
        exact Or.inl (congrArg some (Except.error.inj h))
      · cases h
    | found c target =>
      obtain hown | ⟨quote, hquote⟩ := failure?_found_or_of_error h
      · exact Or.inl hown
      · exact Or.inr ⟨c, target, quote, rfl, hquote⟩

theorem failsByItself_of_ownFailure? (h : ownFailure? t config ctx body = some failure) :
    FailsByItself t config ctx body failure := by
  rw [ownFailure?] at h
  cases hread : Reading.ofBody t ctx body with
  | error fault =>
    rw [hread] at h
    exact Option.some.inj h ▸ .unread hread
  | ok reading =>
    rw [hread] at h
    cases reading with
    | prose => cases h
    | faulty token reason => exact Option.some.inj h ▸ .faulty hread
    | dangling c =>
      cases hstrict : config.failOnUnresolved with
      | false => simp [hstrict] at h
      | true =>
        simp only [hstrict, if_true, Option.some.injEq] at h
        exact h ▸ .dangling hread hstrict
    | found c target =>
      cases hquote : t.excerpt config.encoding c target with
      | error e =>
        obtain rfl : e = failure := by simpa [Reading.failure?, hquote] using h
        exact .excerpt hread hquote
      | ok quote =>
        cases hmargin : config.checkMargin with
        | ok _ => simp [Reading.failure?, hquote, hmargin] at h
        | error fault =>
          obtain rfl : .fault fault = failure := by simpa [Reading.failure?, hquote, hmargin] using h
          exact .margin hread hmargin

theorem not_isTooDeep_of_ownFailure? {complaint : Complaint} (h : ownFailure? t config ctx body = some (.citation complaint)) :
    ¬ complaint.error.IsTooDeep := by
  generalize hfailure : Failure.citation complaint = failure at h
  cases failsByItself_of_ownFailure? h with
  | unread _ => cases hfailure
  | faulty _ => exact Failure.citation.inj hfailure ▸ id
  | dangling _ _ => exact Failure.citation.inj hfailure ▸ id
  | excerpt _ hquote => exact (Tree.complaint_of_excerpt (hfailure ▸ hquote)).2.not_isTooDeep
  | margin _ _ => cases hfailure

/-! ### What resolving lines fails with -/

theorem Segment.map_snd_numberedMarkers (start : Nat) (lines : List Text) :
    (numberedMarkers start lines).map Prod.snd = lines.flatMap markers := by
  induction lines generalizing start with
  | nil => rfl
  | cons line rest ih => simp [numberedMarkers_cons, ih, Function.comp_def]

theorem failure?_resolveLines_eq (t : Tree) (config : Config) (descend : Descent) (ctx : Context) (lines : List Text) :
    failure? (lines.mapM (resolveLine t config descend ctx)).outcome =
      (lines.flatMap Segment.markers).findSome? fun body =>
        failure? (resolveSegment t config descend ctx (.marker body)).outcome := by
  rw [failure?_resolveLines t config descend ctx 0 lines, ← Segment.map_snd_numberedMarkers 0 lines, List.findSome?_map]
  rfl

/-- Lines fail at a marker that resolving gets to. -/
theorem exists_reaches_of_error (h : (lines.mapM (resolveLine t config descend ctx)).outcome = .error failure) :
    ∃ body, Reaches t config descend ctx lines body ∧
      (resolveSegment t config descend ctx (.marker body)).outcome = .error failure := by
  have hsome := failure?_eq_some_iff.2 h
  rw [failure?_resolveLines_eq, List.findSome?_eq_some_iff] at hsome
  obtain ⟨earlier, body, later, hmarkers, hbody, hearlier⟩ := hsome
  refine ⟨body, ⟨earlier, later, hmarkers, fun other hother => ?_⟩, failure?_eq_some_iff.1 hbody⟩
  have hnone := hearlier other hother
  cases houtcome : (resolveSegment t config descend ctx (.marker other)).outcome with
  | ok replaced => exact ⟨replaced, rfl⟩
  | error e => simp [houtcome] at hnone

theorem exists_error_of_mem (hmem : body ∈ lines.flatMap Segment.markers)
    (h : (resolveSegment t config descend ctx (.marker body)).outcome = .error failure) :
    ∃ first, (lines.mapM (resolveLine t config descend ctx)).outcome = .error first := by
  cases houtcome : (lines.mapM (resolveLine t config descend ctx)).outcome with
  | error first => exact ⟨first, rfl⟩
  | ok resolved =>
    have hnone := failure?_resolveLines_eq t config descend ctx lines
    rw [houtcome, failure?_ok, eq_comm, List.findSome?_eq_none_iff] at hnone
    simpa [h] using hnone body hmem

/-- The failure is that as many citations have been followed as there may be, and the last quote has a marker again. -/
def ExhaustsBudget (t : Tree) (config : Config) (budget : Nat) (ctx : Context) (lines : List Text) (failure : Failure) : Prop :=
  ∃ links last inner inside, Leads t config ctx lines (links ++ [last]) inner inside ∧ links.length = budget ∧
    inside.flatMap Segment.markers ≠ [] ∧
    failure = (CitationError.tooDeep (Segment.marker last.body).toText config.maxDepth).failure

theorem failure?_resolveQuote_succ (t : Tree) (config : Config) (budget : Nat) (marker : Text) (ctx : Context) (quote : Text) :
    failure? (resolveQuote t config (budget + 1) marker ctx quote).outcome =
      failure? ((Text.splitOn '\n' quote).mapM (resolveLine t config (resolveQuote t config budget) ctx)).outcome := by
  rw [resolveQuote, Traced.outcome_bind, Traced.outcome_note]
  dsimp only
  rw [resolveLines, Traced.outcome_map, failure?_map]

theorem ExhaustsBudget.step (hmem : body ∈ lines.flatMap Segment.markers)
    (hread : Reading.ofBody t ctx body = .ok (.found c target)) (hquote : t.excerpt config.encoding c target = .ok quote)
    (h : ExhaustsBudget t config budget (ctx.nested target) (Text.splitOn '\n' quote) failure) :
    ExhaustsBudget t config (budget + 1) ctx lines failure := by
  obtain ⟨links, last, inner, inside, hleads, hlength, hrest⟩ := h
  exact ⟨⟨body, c, target⟩ :: links, last, inner, inside, .step (standsIn_of_ofBody hmem hread) hquote hleads,
    by simp [hlength], hrest⟩

/-- What resolving lines fails with is raised at a marker that is met, by the marker itself or because the bound is hit. -/
theorem exists_cause_of_error
    (h : (lines.mapM (resolveLine t config (resolveQuote t config budget) ctx)).outcome = .error failure) :
    ∃ inner body, Meets t config budget ctx lines inner body ∧ RaisedAt t config inner body failure ∧
      (ownFailure? t config inner body = some failure ∨ ExhaustsBudget t config budget ctx lines failure) := by
  induction budget generalizing ctx lines with
  | zero =>
    obtain ⟨body, hreached, hbody⟩ := exists_reaches_of_error h
    obtain hown | ⟨c, target, quote, hread, hquote, hrecursive, hmarkers, hdescend⟩ := ownFailure?_or_of_error hbody
    · exact ⟨ctx, body, .here hreached, .own hown, Or.inl hown⟩
    · obtain rfl := Except.error.inj hdescend
      have hinside := (Segment.hasMarkers_iff (Tree.eq_lineFeed_of_excerpt hquote)).1 hmarkers
      exact ⟨ctx, body, .here hreached, .tooDeep hread hquote ⟨hrecursive, hmarkers⟩, Or.inr ⟨[], ⟨body, c, target⟩, _, _,
        .step (standsIn_of_ofBody hreached.mem hread) hquote (.refl _ _), rfl, hinside, rfl⟩⟩
  | succ budget ih =>
    obtain ⟨body, hreached, hbody⟩ := exists_reaches_of_error h
    obtain hown | ⟨c, target, quote, hread, hquote, hrecursive, hmarkers, hdescend⟩ := ownFailure?_or_of_error hbody
    · exact ⟨ctx, body, .here hreached, .own hown, Or.inl hown⟩
    · rw [← failure?_eq_some_iff, failure?_resolveQuote_succ, failure?_eq_some_iff] at hdescend
      obtain ⟨inner, other, hmet, hraised, hcause⟩ := ih hdescend
      exact ⟨inner, other, .nested hreached hread hquote ⟨hrecursive, hmarkers⟩ hmet, hraised,
        hcause.imp_right (ExhaustsBudget.step hreached.mem hread hquote)⟩

/-! ### Files -/

variable {complaint : Complaint}

theorem resolveFile_eq_error_iff (hlines : t.citedLines config.encoding (base.within file) = .ok lines) :
    (resolveFile t config base file).outcome = .error failure ↔
      ∃ bare, (lines.mapM (resolveLine t config (resolveNested t config)
        { baseDir := base, citingFile := base.within file, recursive := config.recursive })).outcome = .error bare ∧
        bare.inFile (base.within file) = failure := by
  rw [← failure?_eq_some_iff, failure?_resolveFile_of_lines hlines, Option.map_eq_some_iff]
  exact exists_congr fun bare => and_congr_left' failure?_eq_some_iff

theorem outcome_resolveFile_of_error (h : t.citedLines config.encoding (base.within file) = .error failure) :
    (resolveFile t config base file).outcome = .error (failure.inFile (base.within file)) := by
  rw [resolveFile, resolveSource, Traced.outcome_bind, Traced.outcome_lift, h]
  rfl

theorem Failure.exists_of_inFile (h : failure.inFile file = .citation complaint) :
    ∃ bare, failure = .citation bare ∧ bare.error = complaint.error := by
  cases failure with
  | fault f => cases h
  | citation bare =>
    obtain rfl := Failure.citation.inj h
    exact ⟨bare, rfl, rfl⟩

/-- Where quotes are nested too deep, as many citations follow one another as there may be, and the last quote has a marker again. -/
theorem exists_leads_of_tooDeep (h : (resolveFile t config base file).outcome = .error (.citation complaint))
    (hdeep : complaint.error.IsTooDeep) :
    ∃ lines links last inner inside, t.citedLines config.encoding (base.within file) = .ok lines ∧
      Leads t config { baseDir := base, citingFile := base.within file, recursive := config.recursive } lines (links ++ [last])
        inner inside ∧
      links.length = config.maxDepth.toNat ∧ inside.flatMap Segment.markers ≠ [] ∧
      complaint = ⟨.tooDeep (Segment.marker last.body).toText config.maxDepth, some (base.within file)⟩ := by
  cases hlines : t.citedLines config.encoding (base.within file) with
  | error failure =>
    rw [outcome_resolveFile_of_error hlines] at h
    obtain ⟨bare, rfl, hbare⟩ := Failure.exists_of_inFile (Except.error.inj h)
    rw [← hbare] at hdeep
    exact absurd hdeep (Tree.complaint_of_citedLines hlines).2.not_isTooDeep
  | ok lines =>
    obtain ⟨bare, hbare, hfile⟩ := (resolveFile_eq_error_iff hlines).1 h
    obtain ⟨inner, body, -, -, hown | ⟨links, last, inner, inside, hleads, hlength, hmarkers, rfl⟩⟩ := exists_cause_of_error hbare
    · obtain ⟨complaint, rfl, herror⟩ := Failure.exists_of_inFile hfile
      rw [← herror] at hdeep
      exact absurd hdeep (not_isTooDeep_of_ownFailure? hown)
    · exact ⟨lines, links, last, inner, inside, rfl, hleads, hlength, hmarkers, (Failure.citation.inj hfile).symm⟩

def tickBoxTree : Tree :=
  ⟨[], .file "a".toList (Charset.Utf8.encode "[x] b\n".toList) (.file "d".toList (Charset.Utf8.encode "[a]\n".toList) .empty)⟩

theorem tooDeep_tickBoxTree :
    (resolveFile tickBoxTree { recursive := true, maxDepth := 0 } Path.here (Path.ofText "d".toList)).outcome =
      .error (.citation ⟨.tooDeep "[a]".toList 0, some (Path.ofText "d".toList)⟩) := by decide +kernel

theorem exists_leads_in_tickBoxTree :
    ∃ lines links last inner inside, tickBoxTree.citedLines (some "utf-8".toList) (Path.ofText "d".toList) = .ok lines ∧
      Leads tickBoxTree { recursive := true, maxDepth := 0 }
        { baseDir := Path.here, citingFile := Path.ofText "d".toList, recursive := true } lines (links ++ [last]) inner inside ∧
      links.length = 0 ∧ inside.flatMap Segment.markers ≠ [] := by
  obtain ⟨lines, links, last, inner, inside, hlines, hleads, hlength, hmarkers, -⟩ :=
    exists_leads_of_tooDeep tooDeep_tickBoxTree trivial
  exact ⟨lines, links, last, inner, inside, hlines, hleads, hlength, hmarkers⟩

/-- One citation is followed, and the marker in its quote cites no file: nothing is nested in it. -/
theorem exists_tooDeep_at_missing_file :
    (resolveFile tickBoxTree { recursive := true, maxDepth := 0 } Path.here (Path.ofText "d".toList)).outcome =
        .error (.citation ⟨.tooDeep "[a]".toList 0, some (Path.ofText "d".toList)⟩) ∧
      ∀ lines links last inner inside, tickBoxTree.citedLines (some "utf-8".toList) (Path.ofText "d".toList) = .ok lines →
        Leads tickBoxTree { recursive := true, maxDepth := 0 }
          { baseDir := Path.here, citingFile := Path.ofText "d".toList, recursive := true } lines links inner inside →
        links.length = 1 → ¬ Link.StandsIn tickBoxTree inner inside last := by
  refine ⟨tooDeep_tickBoxTree, ?_⟩
  intro lines links last inner inside hlines hleads hlength hlast
  have hsource : tickBoxTree.citedLines (some "utf-8".toList) (Path.ofText "d".toList) = .ok ["[a]".toList] := by decide +kernel
  obtain rfl := Except.ok.inj (hsource.symm.trans hlines)
  cases hleads with
  | refl => cases hlength
  | step stands quoted rest =>
    have hbodies : ["[a]".toList].flatMap Segment.markers = ["a".toList] := by decide +kernel
    have hread : Reading.ofBody tickBoxTree { baseDir := Path.here, citingFile := Path.ofText "d".toList, recursive := true }
        "a".toList = .ok (.found ⟨"a".toList, .whole⟩ (Path.ofText "a".toList)) := by decide +kernel
    obtain rfl := stands.eq_of_singleton hbodies hread
    have hquote : tickBoxTree.excerpt (some "utf-8".toList) ⟨"a".toList, .whole⟩ (Path.ofText "a".toList) =
      .ok "[x] b".toList := by decide +kernel
    obtain rfl := Except.ok.inj (hquote.symm.trans quoted)
    cases rest with
    | step => cases hlength
    | refl =>
      have hinside : (Text.splitOn '\n' "[x] b".toList).flatMap Segment.markers = ["x".toList] := by decide +kernel
      have hmissing : Reading.ofBody tickBoxTree (Context.nested
          { baseDir := Path.here, citingFile := Path.ofText "d".toList, recursive := true } (Path.ofText "a".toList))
          "x".toList = .ok (.dangling ⟨"x".toList, .whole⟩) := by decide +kernel
      have hbody : last.body = "x".toList := List.mem_singleton.1 (hinside ▸ hlast.mem)
      have hfound := hlast.ofBody
      rw [hbody, hmissing] at hfound
      cases hfound

end Quotation
