import Quotation.Proofs.Resolution.Depth
import Quotation.Proofs.Resolution.Nesting

/-!
# Quotes without markers

A quote is resolved in its turn only if it has markers. The test looks at the lines of the quote and resolving at the pieces between its line feeds; for what is quoted from a file the two find the same (`Segment.hasMarkers_iff`). Resolving a quote without markers gives the quote again, notes nothing but that it was entered, and does not fail as long as the budget of levels lasts (`resolveQuoteBy_of_no_markers`). So resolving could as well follow more quotes (`resolveFileBy`) and would come to the same end, unless it then followed one too deep (`resolveFile_of_follows`).
-/

namespace Quotation

open Outcome Traced

/-! ### Other tests -/

/-- Like `resolveReading`, with another test for which quotes are followed. -/
def resolveReadingBy (follow : Text → Bool) (t : Tree) (config : Config) (descend : Descent) (ctx : Context) (marker : Text) :
    Reading → Traced Text
  | .found c target => do
    Traced.note (.cited marker target)
    let quote ← Traced.lift (t.excerpt config.encoding c target)
    let resolved ← if ctx.recursive && follow quote then descend marker (ctx.nested target) quote else pure quote
    Traced.lift ((config.layOut resolved).mapError .fault)
  | reading => resolveReading t config descend ctx marker reading

def resolveSegmentBy (follow : Text → Bool) (t : Tree) (config : Config) (descend : Descent) (ctx : Context) :
    Segment → Traced Text
  | .text content => pure content
  | .marker body => do
    let reading ← Traced.lift ((Reading.ofBody t ctx body).mapError .fault)
    resolveReadingBy follow t config descend ctx (Segment.marker body).toText reading

def resolveLineBy (follow : Text → Bool) (t : Tree) (config : Config) (descend : Descent) (ctx : Context) (line : Text) :
    Traced Text :=
  List.flatten <$> (Segment.split line).mapM (resolveSegmentBy follow t config descend ctx)

def resolveQuoteBy (follow : Text → Bool) (t : Tree) (config : Config) : Nat → Descent
  | 0, marker, _, _ => Traced.fail (.tooDeep marker config.maxDepth)
  | budget + 1, _, ctx, quote => do
    Traced.note (.entered ctx.citingFile ctx.depth)
    Text.join '\n' <$> (Text.splitOn '\n' quote).mapM (resolveLineBy follow t config (resolveQuoteBy follow t config budget) ctx)

def resolveSourceBy (follow : Text → Bool) (t : Tree) (config : Config) (base source : Path) : Traced (List Text × List Text) := do
  let lines ← Traced.lift (t.citedLines config.encoding source)
  let ctx : Context := { baseDir := base, citingFile := source, recursive := config.recursive }
  let resolved ← lines.mapM (resolveLineBy follow t config (resolveQuoteBy follow t config config.maxDepth.toNat) ctx)
  return (lines, resolved.flatMap (Text.splitOn '\n'))

def resolveFileBy (follow : Text → Bool) (t : Tree) (config : Config) (base file : Path) : Traced Resolved :=
  let source := base.within file
  let body := resolveSourceBy follow t config base source
  let summary := fun (before, after) =>
    { source, lines := after, changed := after ≠ before, citations := citationCount body.events,
      unresolved := unresolvedMarkers body.events }
  ⟨body.events, (body.outcome.map summary).mapError (Failure.inFile source)⟩

variable {t : Tree} {config : Config} {descend : Descent} {ctx : Context} {line quote : Text} {base file : Path}
  {follow : Text → Bool}

theorem resolveLineBy_hasMarkers (t : Tree) (config : Config) (descend : Descent) (ctx : Context) :
    resolveLineBy Segment.hasMarkers t config descend ctx = resolveLine t config descend ctx := by
  have hreading : ∀ marker reading,
      resolveReadingBy Segment.hasMarkers t config descend ctx marker reading = resolveReading t config descend ctx marker reading := by
    intro marker reading
    cases reading <;> rfl
  have hsegment : resolveSegmentBy Segment.hasMarkers t config descend ctx = resolveSegment t config descend ctx := by
    funext segment
    cases segment with
    | text content => rfl
    | marker body => simp only [resolveSegmentBy, resolveSegment, hreading]
  funext line
  rw [resolveLineBy, resolveLine, hsegment]

theorem resolveQuoteBy_hasMarkers (t : Tree) (config : Config) (budget : Nat) :
    resolveQuoteBy Segment.hasMarkers t config budget = resolveQuote t config budget := by
  induction budget with
  | zero => rfl
  | succ budget ih =>
    funext marker ctx quote
    rw [resolveQuoteBy, resolveQuote, ih, resolveLineBy_hasMarkers, resolveLines]

theorem resolveFileBy_hasMarkers (t : Tree) (config : Config) (base file : Path) :
    resolveFileBy Segment.hasMarkers t config base file = resolveFile t config base file := by
  have hsource : resolveSourceBy Segment.hasMarkers t config base (base.within file) =
      resolveSource t config base (base.within file) := by
    simp only [resolveSourceBy, resolveSource, resolveLineBy_hasMarkers, resolveQuoteBy_hasMarkers, resolveNested]
  rw [resolveFileBy, resolveFile, hsource]

/-! ### Quotes without markers -/

theorem Segment.mem_markers_iff {body : Text} : body ∈ markers line ↔ .marker body ∈ split line := by
  rw [markers, List.mem_filterMap]
  constructor
  · rintro ⟨segment, hsegment, hbody⟩
    cases segment with
    | text content => cases hbody
    | marker other =>
      obtain rfl := Option.some.inj hbody
      exact hsegment
  · exact fun h => ⟨.marker body, h, rfl⟩

theorem Segment.mapM_split_of_no_markers {f : Segment → Traced Text} (htext : ∀ content, f (.text content) = pure content)
    (h : markers line = []) : List.flatten <$> (split line).mapM f = pure line := by
  have hsegments : ∀ segment ∈ split line, f segment = pure segment.toText := by
    intro segment hsegment
    cases segment with
    | text content => exact htext content
    | marker body =>
      have hmem : body ∈ markers line := mem_markers_iff.2 hsegment
      simp [h] at hmem
  rw [Traced.mapM_eq_pure hsegments, map_pure]
  exact congrArg pure (joinAll_split line)

theorem Segment.mapM_pieces_of_no_markers {f : Segment → Traced Text} (htext : ∀ content, f (.text content) = pure content)
    (h : (Text.splitOn '\n' quote).flatMap markers = []) :
    Text.join '\n' <$> (Text.splitOn '\n' quote).mapM (fun piece => List.flatten <$> (split piece).mapM f) = pure quote := by
  have hpieces : ∀ piece ∈ Text.splitOn '\n' quote, List.flatten <$> (split piece).mapM f = pure piece :=
    fun piece hpiece => mapM_split_of_no_markers htext (List.flatMap_eq_nil_iff.1 h piece hpiece)
  rw [Traced.mapM_eq_pure hpieces, map_pure, List.map_id', Text.join_splitOn]

theorem resolveLines_of_no_markers (t : Tree) (config : Config) (descend : Descent) (ctx : Context)
    (h : (Text.splitOn '\n' quote).flatMap Segment.markers = []) : resolveLines t config descend ctx quote = pure quote :=
  Segment.mapM_pieces_of_no_markers (f := resolveSegment t config descend ctx) (fun _ => rfl) h

theorem resolveQuoteBy_of_no_markers (follow : Text → Bool) (t : Tree) (config : Config) (budget : Nat) (marker : Text) (ctx : Context)
    (h : (Text.splitOn '\n' quote).flatMap Segment.markers = []) :
    resolveQuoteBy follow t config (budget + 1) marker ctx quote = ⟨[.entered ctx.citingFile ctx.depth], .ok quote⟩ := by
  have hpieces := Segment.mapM_pieces_of_no_markers
    (f := resolveSegmentBy follow t config (resolveQuoteBy follow t config budget) ctx) (fun _ => rfl) h
  rw [resolveQuoteBy]
  exact congrArg (Traced.note (.entered ctx.citingFile ctx.depth) >>= fun _ => ·) hpieces

/-! ### Following more quotes -/

/-- The events but for quotes that are entered. -/
def told (events : List Event) : List Event := events.filter fun | .entered .. => false | _ => true

theorem told_append (first second : List Event) : told (first ++ second) = told first ++ told second := List.filter_append ..

theorem citationCount_told (events : List Event) : citationCount (told events) = citationCount events := by
  induction events with
  | nil => rfl
  | cons event rest ih =>
    cases event <;> simpa [told, citationCount] using ih

theorem unresolvedMarkers_told (events : List Event) : unresolvedMarkers (told events) = unresolvedMarkers events := by
  induction events with
  | nil => rfl
  | cons event rest ih =>
    cases event <;> simpa [told, unresolvedMarkers] using ih

/-- The first computation ends and tells the same as the second one, unless that hits the bound. -/
def Traced.Mirrors {α : Type} (y x : Traced α) : Prop := ¬ x.HitsBound → y.outcome = x.outcome ∧ told y.events = told x.events

theorem Traced.Mirrors.refl {α : Type} (x : Traced α) : Mirrors x x := fun _ => ⟨rfl, rfl⟩

theorem Traced.Mirrors.bind {α β : Type} {x y : Traced α} {next later : α → Traced β} (h : Mirrors y x)
    (hnext : ∀ a, x.outcome = .ok a → y.outcome = .ok a → Mirrors (later a) (next a)) : Mirrors (y >>= later) (x >>= next) := by
  intro hbound
  obtain ⟨houtcome, hevents⟩ := h fun hx => hbound (hx.bind next)
  cases hx : x.outcome with
  | error failure =>
    rw [bind_of_error hx, bind_of_error (houtcome.trans hx)]
    exact ⟨rfl, hevents⟩
  | ok a =>
    have hy : y.outcome = .ok a := houtcome.trans hx
    obtain ⟨hrest, htold⟩ := hnext a hx hy fun hdeep => hbound (.of_next hx hdeep)
    rw [bind_of_ok hx, bind_of_ok hy]
    refine ⟨hrest, ?_⟩
    rw [told_append, told_append, hevents, htold]

theorem Traced.compatible_mirrors : Compatible fun _ => Mirrors := ⟨fun a => .refl (pure a), Mirrors.bind⟩

/-- Where a quote without markers is entered, this is not to be seen. -/
theorem pure_mirrors_resolveQuoteBy (h : (Text.splitOn '\n' quote).flatMap Segment.markers = []) (budget : Nat) (marker : Text)
    (ctx : Context) : Mirrors (pure quote) (resolveQuoteBy follow t config budget marker ctx quote) := by
  cases budget with
  | zero =>
    intro hbound
    exact absurd ⟨⟨.tooDeep marker config.maxDepth, none⟩, rfl, trivial⟩ hbound
  | succ budget =>
    rw [resolveQuoteBy_of_no_markers follow t config budget marker ctx h]
    exact fun _ => ⟨rfl, rfl⟩

/-- One way to go on with quotes is mirrored by another one, also where that goes on with quotes without markers and the first one does not. -/
structure Descent.MirroredBy (descend more : Descent) : Prop where
  followed : ∀ marker ctx quote, Mirrors (descend marker ctx quote) (more marker ctx quote)
  plain : ∀ marker ctx quote, (Text.splitOn '\n' quote).flatMap Segment.markers = [] → Mirrors (pure quote) (more marker ctx quote)

section

variable (hfollow : ∀ quote, Segment.hasMarkers quote = true → follow quote = true)
include hfollow

theorem resolveReadingBy_mirrors {more : Descent} (h : descend.MirroredBy more) (ctx : Context) (marker : Text) (reading : Reading) :
    Mirrors (resolveReading t config descend ctx marker reading) (resolveReadingBy follow t config more ctx marker reading) := by
  cases reading with
  | prose => exact .refl _
  | faulty token reason => exact .refl _
  | dangling c => exact .refl _
  | found c target =>
    rw [resolveReading, resolveReadingBy]
    refine .bind (.refl _) fun _ _ _ => .bind (.refl _) fun quote hquote _ => ?_
    dsimp only
    cases ctx.recursive with
    | false => exact .refl _
    | true =>
      cases hmarkers : Segment.hasMarkers quote with
      | true =>
        rw [hfollow quote hmarkers]
        exact .bind (h.followed _ _ quote) fun _ _ _ => .refl _
      | false =>
        cases follow quote with
        | false => exact .refl _
        | true =>
          have hnone : (Text.splitOn '\n' quote).flatMap Segment.markers = [] := by
            simpa [hmarkers] using Segment.hasMarkers_iff (Tree.eq_lineFeed_of_excerpt hquote)
          exact .bind (h.plain _ _ quote hnone) fun _ _ _ => .refl _

theorem resolveLineBy_mirrors {more : Descent} (h : descend.MirroredBy more) (ctx : Context) (line : Text) :
    Mirrors (resolveLine t config descend ctx line) (resolveLineBy follow t config more ctx line) := by
  refine compatible_mirrors.map (compatible_mirrors.mapM fun _ segment _ _ _ => ?_) List.flatten
  cases segment with
  | text content => exact .refl _
  | marker body => exact .bind (.refl _) fun reading _ _ => resolveReadingBy_mirrors hfollow h ctx _ reading

theorem resolveQuote_mirroredBy (budget : Nat) :
    (resolveQuote t config budget).MirroredBy (resolveQuoteBy follow t config budget) := by
  induction budget with
  | zero => exact ⟨fun _ _ _ => .refl _, fun marker ctx _ hnone => pure_mirrors_resolveQuoteBy hnone 0 marker ctx⟩
  | succ budget ih =>
    refine ⟨fun marker ctx quote => .bind (.refl _) fun _ _ _ => ?_,
      fun marker ctx _ hnone => pure_mirrors_resolveQuoteBy hnone (budget + 1) marker ctx⟩
    exact compatible_mirrors.map (compatible_mirrors.mapM fun _ piece _ _ _ => resolveLineBy_mirrors hfollow ih ctx piece)
      (Text.join '\n')

theorem resolveSourceBy_mirrors (base source : Path) :
    Mirrors (resolveSource t config base source) (resolveSourceBy follow t config base source) := by
  refine .bind (.refl _) fun lines _ _ => .bind (compatible_mirrors.mapM fun _ line _ _ _ => ?_) fun _ _ _ => .refl _
  exact resolveLineBy_mirrors hfollow (resolveQuote_mirroredBy hfollow _) _ line

/-- A file is resolved in the same way if more quotes are followed, unless one of these stands too deep. -/
theorem resolveFile_of_follows (h : ¬ (resolveFileBy follow t config base file).HitsBound) :
    (resolveFile t config base file).outcome = (resolveFileBy follow t config base file).outcome ∧
      told (resolveFile t config base file).events = told (resolveFileBy follow t config base file).events := by
  have hsource : ¬ (resolveSourceBy follow t config base (base.within file)).HitsBound := by
    rintro ⟨complaint, houtcome, hdeep⟩
    exact h ⟨complaint.inFile (base.within file), by rw [resolveFileBy, houtcome]; rfl, hdeep⟩
  obtain ⟨houtcome, hevents⟩ := resolveSourceBy_mirrors hfollow base (base.within file) hsource
  have hcitations := congrArg citationCount hevents
  have hunresolved := congrArg unresolvedMarkers hevents
  rw [citationCount_told, citationCount_told] at hcitations
  rw [unresolvedMarkers_told, unresolvedMarkers_told] at hunresolved
  refine ⟨?_, hevents⟩
  rw [resolveFile, resolveFileBy, houtcome, hcitations, hunresolved]

end

/-- What is quoted from a file has markers exactly if a piece of it between line feeds has one. If it has none, resolving it in any surroundings gives the quote itself, notes nothing that counts, and fails only where no level is left. So following such quotes as well makes no difference to a file, unless they stand too deep. -/
theorem resolve_quote_of_no_markers {u : Tree} {source : Path} {encoding : Option Text} {lines : List Text} {c : Citation}
    (hlines : u.readLines source encoding = .ok lines) (hquote : Excerpt.extract lines c = .ok quote) :
    (Segment.hasMarkers quote = true ↔ ∃ piece ∈ Text.splitOn '\n' quote, ∃ body, .marker body ∈ Segment.split piece) ∧
      (Segment.hasMarkers quote = false → ∀ t config ctx,
        (∀ descend, resolveLines t config descend ctx quote = pure quote) ∧
          (∀ budget marker,
            resolveQuote t config (budget + 1) marker ctx quote = ⟨[.entered ctx.citingFile ctx.depth], .ok quote⟩) ∧
          ∀ marker, resolveQuote t config 0 marker ctx quote = Traced.fail (.tooDeep marker config.maxDepth)) ∧
      ∀ t config base file,
        resolveFileBy Segment.hasMarkers t config base file = resolveFile t config base file ∧
          ∀ follow : Text → Bool, (∀ other, Segment.hasMarkers other = true → follow other = true) →
            ¬ (resolveFileBy follow t config base file).HitsBound →
            (resolveFile t config base file).outcome = (resolveFileBy follow t config base file).outcome ∧
              told (resolveFile t config base file).events = told (resolveFileBy follow t config base file).events := by
  have hiff := Segment.hasMarkers_iff (Tree.eq_lineFeed_of_extract hlines hquote)
  refine ⟨?_, fun hmarkers t config ctx => ?_, fun t config base file =>
    ⟨resolveFileBy_hasMarkers t config base file, fun follow hfollow => resolveFile_of_follows hfollow⟩⟩
  · rw [hiff]
    constructor
    · intro hne
      obtain ⟨body, hbody⟩ := List.exists_mem_of_ne_nil _ hne
      obtain ⟨piece, hpiece, hmem⟩ := List.mem_flatMap.1 hbody
      exact ⟨piece, hpiece, body, Segment.mem_markers_iff.1 hmem⟩
    · rintro ⟨piece, hpiece, body, hmem⟩
      exact List.ne_nil_of_mem (List.mem_flatMap.2 ⟨piece, hpiece, Segment.mem_markers_iff.2 hmem⟩)
  · have hnone : (Text.splitOn '\n' quote).flatMap Segment.markers = [] := by simpa [hmarkers] using hiff
    refine ⟨fun descend => resolveLines_of_no_markers t config descend ctx hnone, fun budget marker => ?_, fun marker => rfl⟩
    rw [← resolveQuoteBy_hasMarkers, resolveQuoteBy_of_no_markers _ t config budget marker ctx hnone]

def plainQuoteTree : Tree :=
  ⟨[], .file "d".toList (Charset.Utf8.encode "[e]\n".toList) (.file "e".toList (Charset.Utf8.encode "x\n".toList) .empty)⟩

theorem resolve_quote_in_plainQuoteTree :
    (∀ descend ctx, resolveLines plainQuoteTree {} descend ctx "x".toList = pure "x".toList) ∧
      (resolveFile plainQuoteTree { recursive := true, maxDepth := 1 } Path.here (Path.ofText "d".toList)).outcome =
        (resolveFileBy (fun _ => true) plainQuoteTree { recursive := true, maxDepth := 1 } Path.here (Path.ofText "d".toList)).outcome := by
  have hlines : plainQuoteTree.readLines (Path.ofText "e".toList) (some "utf-8".toList) = .ok ["x".toList] := by decide +kernel
  have hquote : Excerpt.extract ["x".toList] ⟨"e".toList, .whole⟩ = .ok "x".toList := rfl
  obtain ⟨-, hplain, hfollows⟩ := resolve_quote_of_no_markers hlines hquote
  have hmarkers : Segment.hasMarkers "x".toList = false := by decide +kernel
  have houtcome : (resolveFileBy (fun _ => true) plainQuoteTree { recursive := true, maxDepth := 1 } Path.here
      (Path.ofText "d".toList)).outcome = .ok ⟨Path.ofText "d".toList, ["x".toList], true, 1, []⟩ := by decide +kernel
  refine ⟨fun descend ctx => (hplain hmarkers plainQuoteTree {} ctx).1 descend, ((hfollows _ _ _ _).2 _ (fun _ _ => rfl) ?_).1⟩
  rintro ⟨complaint, herror, -⟩
  cases houtcome.symm.trans herror

/-- With no level left, the quote stands only because it is not followed. -/
theorem exists_tooDeep_without_markers :
    Segment.hasMarkers "x".toList = false ∧
      (resolveFile plainQuoteTree { recursive := true, maxDepth := 0 } Path.here (Path.ofText "d".toList)).outcome =
        .ok ⟨Path.ofText "d".toList, ["x".toList], true, 1, []⟩ ∧
      (resolveFileBy (fun _ => true) plainQuoteTree { recursive := true, maxDepth := 0 } Path.here (Path.ofText "d".toList)).outcome =
        .error (.citation ⟨.tooDeep "[e]".toList 0, some (Path.ofText "d".toList)⟩) := by
  decide +kernel

end Quotation
