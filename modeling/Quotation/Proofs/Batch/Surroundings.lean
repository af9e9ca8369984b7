import Quotation.Proofs.Batch.KeepGoing
import Quotation.Proofs.Resolution.Written

/-!
# What surrounds the markers

A changed file is written as the text of its source with each marker replaced by what it resolves to (`ReplacesMarkers`). The lines of the source are taken apart at every character that ends a line and put together with line feeds, so this is true of the text in which each of these characters is a line feed (`Text.lineFeeds`): a form feed between two words does not survive the resolution of a marker elsewhere.
-/

namespace Quotation

open Outcome

/-- What stands in the place of a segment: text stands for itself, and a marker gives way to what it resolves to. -/
def Segment.GivesWay (t : Tree) (config : Config) (ctx : Context) : Segment → Text → Prop
  | .text content, piece => piece = content
  | .marker body, piece => (resolveSegment t config (resolveNested t config) ctx (.marker body)).outcome = .ok piece

/-- A line has been written with each of its markers replaced and every other character kept. -/
def ReplacesInLine (t : Tree) (config : Config) (ctx : Context) (line written : Text) : Prop :=
  ∃ pieces, List.Forall₂ (Segment.GivesWay t config ctx) (Segment.split line) pieces ∧ written = pieces.flatten

/-- A text has been written with the markers of its lines replaced, and with at most one more line feed at its end. -/
def ReplacesMarkers (t : Tree) (config : Config) (ctx : Context) (text written : Text) : Prop :=
  ∃ lines, List.Forall₂ (ReplacesInLine t config ctx) (Text.splitOn '\n' text) lines ∧
    (written = Text.join '\n' lines ∨ written = Text.join '\n' lines ++ ['\n'])

variable {t : Tree} {config : Config} {ctx : Context} {base file : Path}

/-! ### Lines -/

theorem Segment.givesWay_iff {segment : Segment} {piece : Text} :
    segment.GivesWay t config ctx piece ↔ (resolveSegment t config (resolveNested t config) ctx segment).outcome = .ok piece := by
  cases segment with
  | text content =>
    show piece = content ↔ Except.ok content = .ok piece
    rw [Except.ok.injEq, eq_comm]
  | marker body => rfl

theorem replacesInLine_iff {line written : Text} :
    ReplacesInLine t config ctx line written ↔
      (resolveLine t config (resolveNested t config) ctx line).outcome = .ok written := by
  rw [resolveLine, Traced.outcome_map, Traced.outcome_mapM, map_eq_ok_iff]
  constructor
  · rintro ⟨pieces, hpieces, rfl⟩
    exact ⟨pieces, mapM_of_forall₂ (hpieces.imp fun _ _ => Segment.givesWay_iff.1), rfl⟩
  · rintro ⟨pieces, hpieces, rfl⟩
    exact ⟨pieces, (forall₂_of_mapM hpieces).imp fun _ _ => Segment.givesWay_iff.2, rfl⟩

theorem replacesInLine_nil : ReplacesInLine t config ctx [] [] := ⟨[[]], .cons rfl .nil, rfl⟩

/-! ### Files -/

/-- The lines of a changed file are what the lines of its source resolve to, cut at line feeds. -/
theorem exists_lines_of_resolveFile {resolved : Resolved} (h : (resolveFile t config base file).outcome = .ok resolved) :
    ∃ before after, t.citedLines config.encoding (base.within file) = .ok before ∧
      List.Forall₂ (ReplacesInLine t config { baseDir := base, citingFile := base.within file, recursive := config.recursive })
        before after ∧ resolved.lines = after.flatMap (Text.splitOn '\n') := by
  rw [resolveFile, mapError_eq_ok_iff, map_eq_ok_iff] at h
  obtain ⟨⟨before, cut⟩, houtcome, rfl⟩ := h
  rw [resolveSource, Traced.outcome_bind, Traced.outcome_lift] at houtcome
  cases hlines : t.citedLines config.encoding (base.within file) with
  | error failure => simp [hlines] at houtcome
  | ok lines =>
    simp only [hlines, Traced.outcome_bind, Traced.outcome_mapM] at houtcome
    cases hresolved : lines.mapM fun line => (resolveLine t config (resolveNested t config)
        { baseDir := base, citingFile := base.within file, recursive := config.recursive } line).outcome with
    | error failure => simp [hresolved] at houtcome
    | ok after =>
      rw [hresolved] at houtcome
      obtain ⟨rfl, rfl⟩ := Prod.mk.inj (Except.ok.inj houtcome)
      exact ⟨lines, after, rfl, (forall₂_of_mapM hresolved).imp fun _ _ => replacesInLine_iff.2, rfl⟩

theorem replacesMarkers_of_lines {text : Text} {after : List Text} (hreturn : '\r' ∉ text) (hne : after ≠ [])
    (h : List.Forall₂ (ReplacesInLine t config ctx) (Text.lines text) after) :
    ReplacesMarkers t config ctx (Text.lineFeeds text) (Text.join '\n' after ++ ['\n']) := by
  have hlines := Text.splitOn_eq_lines_or fun c hc => Text.isBreak_of_mem_lineFeeds (t := text) hc
  rw [Text.lines_lineFeeds hreturn] at hlines
  obtain hpieces | hpieces := hlines
  · exact ⟨after, hpieces ▸ h, Or.inr rfl⟩
  · refine ⟨after ++ [[]], hpieces ▸ List.rel_append h (.cons replacesInLine_nil .nil), Or.inl ?_⟩
    exact (Text.join_append hne (List.cons_ne_nil [] [])).symm

theorem replacesMarkers_of_isWritten {before after : Tree} {charset : Charset} {placed : Placed} {text : Text}
    (hwritten : Placed.IsWritten after config.encoding charset placed) (hnamed : Charset.NamedBy config.encoding charset)
    (hresolve : (resolveFile before config base file).outcome = .ok placed.resolved) (hchanged : placed.resolved.changed = true)
    (htext : before.readText (base.within file) config.encoding = .ok text) (hreturn : '\r' ∉ text) :
    ∃ written, after.readText placed.destination config.encoding = .ok written ∧
      ReplacesMarkers before config { baseDir := base, citingFile := base.within file, recursive := config.recursive }
        (Text.lineFeeds text) written := by
  obtain ⟨lines, replaced, hlines, hreplaced, hresolved⟩ := exists_lines_of_resolveFile hresolve
  obtain ⟨other, hother, rfl⟩ := Tree.readLines_eq_ok_iff.1 (Tree.citedLines_eq_ok_iff.1 hlines)
  obtain rfl : text = other := Except.ok.inj (htext.symm.trans hother)
  rw [Text.unifyBreaks_of_not_mem hreturn] at hreplaced
  obtain ⟨place, content, written, hplace, hget, hdecode, -, hjoined, -⟩ := hwritten.stored
  have hreach : ∃ reached, after.reach placed.destination = .ok reached := by
    by_contra hnone
    have hkept := (hwritten.reachable fun reached hreached => hnone ⟨reached, hreached⟩).1
    exact absurd (hchanged.symm.trans hkept) (by decide)
  obtain ⟨reached, hreached⟩ := hreach
  obtain rfl : reached = place := Except.ok.inj ((Tree.resolve_of_reach hreached).symm.trans hplace)
  refine ⟨written, Tree.readText_eq_ok_iff.2 ⟨charset, content, hnamed, Tree.readAt_eq_ok_iff.2 ⟨reached, hreached, hget⟩, hdecode⟩, ?_⟩
  obtain ⟨-, _, -, -, hsome, -⟩ := exists_of_resolveFile (supplies_safe hnamed before) hresolve
  have hne : replaced ≠ [] := by
    rintro rfl
    exact hsome hchanged hresolved
  rw [hjoined hchanged, hresolved, Text.join_flatMap_splitOn]
  exact replacesMarkers_of_lines hreturn hne hreplaced

/-- A file that a run has changed is written as the text of its source with the markers replaced. Characters that end lines become line feeds on the way, so the text has to have no others for all of it to be kept. -/
theorem resolveFiles_keeps_surroundings {files : List Path} {earlier : List FileResult} {placed : Placed} {text : Text}
    (hcwd : t.HasCwd) (hrun : (resolveFiles config base t (files ++ [file])).outcome = .ok ⟨earlier ++ [.placed placed]⟩)
    (hchanged : placed.resolved.changed = true)
    (htext : (resolveFiles config base t files).tree.readText (base.within file) config.encoding = .ok text)
    (hreturn : '\r' ∉ text) :
    ∃ written, (resolveFiles config base t (files ++ [file])).tree.readText placed.destination config.encoding = .ok written ∧
      ReplacesMarkers (resolveFiles config base t files).tree config
        { baseDir := base, citingFile := base.within file, recursive := config.recursive } (Text.lineFeeds text) written ∧
      ((∀ c ∈ text, Text.isBreak c = true → c = '\n') →
        ReplacesMarkers (resolveFiles config base t files).tree config
          { baseDir := base, citingFile := base.within file, recursive := config.recursive } text written) := by
  obtain ⟨others, last, hresults, hlast, htree⟩ := exists_of_resolveFiles_concat hrun
  obtain ⟨-, rfl⟩ := List.append_inj' hresults.symm rfl |>.imp_right fun heq => List.singleton_inj.1 heq
  obtain ⟨charset, -, hnamed, -, -⟩ := Tree.readText_eq_ok_iff.1 htext
  have hwritten := isWritten_of_runFile ((keepsDirs_of_resolveFiles files hcwd).hasCwd hcwd) hnamed hlast
  obtain ⟨written, hread, hreplaces⟩ :=
    replacesMarkers_of_isWritten hwritten hnamed (exists_of_placed hlast).1 hchanged htext hreturn
  rw [htree]
  exact ⟨written, hread, hreplaces, fun hfeeds => Text.lineFeeds_eq_self hfeeds ▸ hreplaces⟩

theorem citingTree_keeps_surroundings :
    let config : Config := { outputDir := some (Path.ofText "o".toList) }
    let d := Path.ofText "d.md".toList
    let placed : Placed := ⟨⟨d, ["a b".toList], true, 1, []⟩, Path.ofText "o/d.md".toList⟩
    citingTree.HasCwd ∧ (resolveFiles config Path.here citingTree [d]).outcome = .ok ⟨[.placed placed]⟩ ∧
      citingTree.readText d config.encoding = .ok "a [e]\n".toList ∧
      ∃ written, (resolveFiles config Path.here citingTree [d]).tree.readText placed.destination config.encoding = .ok written ∧
        ReplacesMarkers citingTree config { baseDir := Path.here, citingFile := d } "a [e]\n".toList written := by
  intro config d placed
  have hcwd : citingTree.HasCwd := rfl
  have hrun : (resolveFiles config Path.here citingTree ([] ++ [d])).outcome = .ok ⟨[] ++ [.placed placed]⟩ := by decide +kernel
  have htext : (resolveFiles config Path.here citingTree []).tree.readText (Path.here.within d) config.encoding =
      .ok "a [e]\n".toList := by decide +kernel
  obtain ⟨written, hwritten, -, hkept⟩ := resolveFiles_keeps_surroundings hcwd hrun rfl htext (by decide)
  have hfeeds : ("a [e]\n".toList.all fun c => !Text.isBreak c || c == '\n') = true := by decide +kernel
  refine ⟨hcwd, hrun, htext, written, hwritten, hkept fun c hc hbreak => ?_⟩
  simpa [hbreak] using List.all_eq_true.1 hfeeds c hc

def formFeedTree : Tree :=
  ⟨[], .file "d".toList (Charset.Utf8.encode "[e]\x0cx\n".toList) (.file "e".toList (Charset.Utf8.encode "y\n".toList) .empty)⟩

/-- The form feed is lost, although it stands outside of all markers. -/
theorem exists_lost_form_feed :
    ∃ (t : Tree) (base file : Path) (placed : Placed) (text written : Text), t.HasCwd ∧
      (resolveFiles {} base t [file]).outcome = .ok ⟨[.placed placed]⟩ ∧ placed.resolved.changed = true ∧
      t.readText (base.within file) (some "utf-8".toList) = .ok text ∧ '\r' ∉ text ∧
      (resolveFiles {} base t [file]).tree.readText placed.destination (some "utf-8".toList) = .ok written ∧
      '\x0c' ∈ text ∧ '\x0c' ∉ written ∧
      ¬ ReplacesMarkers t {} { baseDir := base, citingFile := base.within file } text written := by
  refine ⟨formFeedTree, Path.here, ⟨.here, ["d".toList]⟩,
    ⟨⟨⟨.here, ["d".toList]⟩, ["y".toList, "x".toList], true, 1, []⟩, ⟨.here, ["d".toList]⟩⟩,
    "[e]\x0cx\n".toList, "y\nx\n".toList, rfl, ?_, rfl, ?_, by decide, ?_, by decide, by decide, ?_⟩
  · decide +kernel
  · decide +kernel
  · decide +kernel
  · rintro ⟨lines, hlines, hwritten⟩
    have hsplit : Text.splitOn '\n' "[e]\x0cx\n".toList = ["[e]\x0cx".toList, []] := by decide
    rw [hsplit] at hlines
    obtain ⟨first, rest, hfirst, hrest, rfl⟩ := List.forall₂_cons_left_iff.1 hlines
    have hresolved : (resolveLine formFeedTree {} (resolveNested formFeedTree {})
        { baseDir := Path.here, citingFile := Path.here.within ⟨.here, ["d".toList]⟩ } "[e]\x0cx".toList).outcome =
        .ok "y\x0cx".toList := by decide +kernel
    obtain rfl : first = "y\x0cx".toList := Except.ok.inj ((replacesInLine_iff.1 hfirst).symm.trans hresolved)
    have hkept : '\x0c' ∈ Text.join '\n' ("y\x0cx".toList :: rest) :=
      Text.mem_join_of_mem List.mem_cons_self (by decide)
    have hlost : '\x0c' ∉ "y\nx\n".toList := by decide
    obtain hwritten | hwritten := hwritten
    · exact hlost (hwritten ▸ hkept)
    · exact hlost (hwritten ▸ List.mem_append_left _ hkept)

end Quotation
