import Quotation.Proofs.Resolution.Outcome
import Quotation.Proofs.Text.Escape
import Quotation.Resolution.Document

/-!
# Quotes laid out within quotes

A quote is laid out when it is done, and by then the quotes within it have been laid out. So what stands in three quotes is laid out three times. This module resolves a text to parts that know how many quotes they stand in (`Layered`). Where quotes are escaped and their margins left alone, the resolved text is these parts, each escaped as often as it is quoted (`getQuote_eq_shown`). It is the quote escaped once only if nothing that stands in further quotes has a reserved character (`getQuote_escaped_once_iff`).
-/

namespace Quotation

/-! ### Parts -/

/-- A text in parts, each with the number of quotes that it stands in. -/
abbrev Layered := List (Nat × Text)

namespace Layered

def plain (t : Text) : Layered := [(0, t)]

def quoted (parts : Layered) : Layered := parts.map fun (depth, t) => (depth + 1, t)

def join : List Layered → Layered
  | [] => []
  | [line] => line
  | line :: next :: rest => line ++ plain ['\n'] ++ join (next :: rest)

/-- The text that the parts make up when each of them has been changed as often as it is quoted. -/
def shown (change : Text → Text) (parts : Layered) : Text := parts.flatMap fun (depth, t) => change^[depth] t

variable {change : Text → Text}

@[simp] theorem shown_nil : shown change [] = [] := rfl

@[simp] theorem shown_cons (depth : Nat) (t : Text) (rest : Layered) :
    shown change ((depth, t) :: rest) = change^[depth] t ++ shown change rest := List.flatMap_cons

@[simp] theorem shown_append (a b : Layered) : shown change (a ++ b) = shown change a ++ shown change b :=
  List.flatMap_append

@[simp] theorem shown_plain (t : Text) : shown change (plain t) = t := List.append_nil t

theorem shown_flatten (lines : List Layered) : shown change lines.flatten = (lines.map (shown change)).flatten := by
  induction lines with
  | nil => rfl
  | cons line rest ih => simp [ih]

theorem shown_join (lines : List Layered) : shown change (join lines) = Text.join '\n' (lines.map (shown change)) := by
  fun_induction join lines with
  | case1 => rfl
  | case2 line => rfl
  | case3 line next rest ih => simp [ih, Text.join]

theorem shown_quoted (hnil : change [] = []) (happend : ∀ a b, change (a ++ b) = change a ++ change b) (parts : Layered) :
    shown change (quoted parts) = change (shown change parts) := by
  induction parts with
  | nil => exact hnil.symm
  | cons part rest ih =>
    obtain ⟨depth, t⟩ := part
    change change^[depth + 1] t ++ shown change (quoted rest) = change (change^[depth] t ++ shown change rest)
    rw [ih, happend, Function.iterate_succ_apply']

/-! ### Resolving to parts -/

/-- How to go on with a quote that has markers of its own. -/
abbrev Descent := Text → Context → Text → Traced Layered

def ofReading (t : Tree) (config : Config) (descend : Descent) (ctx : Context) (marker : Text) : Reading → Traced Layered
  | .prose => do
    Traced.note (.left marker)
    return plain marker
  | .faulty token reason => Traced.fail (.malformed token reason)
  | .dangling c => do
    if config.failOnUnresolved then Traced.fail (.unresolved marker (Path.ofText c.ref))
    else
      Traced.note (.unresolved marker)
      return plain marker
  | .found c target => do
    Traced.note (.cited marker target)
    let quote ← Traced.lift (t.excerpt config.encoding c target)
    let parts ←
      if ctx.recursive && Segment.hasMarkers quote then descend marker (ctx.nested target) quote else pure (plain quote)
    return quoted parts

def ofSegment (t : Tree) (config : Config) (descend : Descent) (ctx : Context) : Segment → Traced Layered
  | .text content => pure (plain content)
  | .marker body => do
    let reading ← Traced.lift ((Reading.ofBody t ctx body).mapError .fault)
    ofReading t config descend ctx (Segment.marker body).toText reading

def ofLine (t : Tree) (config : Config) (descend : Descent) (ctx : Context) (line : Text) : Traced Layered :=
  List.flatten <$> (Segment.split line).mapM (ofSegment t config descend ctx)

def ofLines (t : Tree) (config : Config) (descend : Descent) (ctx : Context) (text : Text) : Traced Layered :=
  join <$> (Text.splitOn '\n' text).mapM (ofLine t config descend ctx)

def ofQuote (t : Tree) (config : Config) : Nat → Descent
  | 0, marker, _, _ => Traced.fail (.tooDeep marker config.maxDepth)
  | budget + 1, _, ctx, quote => do
    Traced.note (.entered ctx.citingFile ctx.depth)
    ofLines t config (ofQuote t config budget) ctx quote

/-- The quote of a single citation in parts. -/
def ofCitation (t : Tree) (config : Config) (citing : Path) (c : Citation) : Traced Layered := do
  let ctx ← Traced.lift ((Context.ofCiting t config.recursive citing).mapError .fault)
  let reading ← Traced.lift ((Reading.ofCitation t ctx c).mapError .fault)
  ofReading t config (ofQuote t config config.maxDepth.toNat) ctx c.marker reading

end Layered

/-! ### The parts make up the resolved text -/

def escaping (escape : Bool) (t : Text) : Text := if escape then Text.Xml.escape t else t

/-- Quotes keep the margins that they have. -/
structure Config.KeepsMargins (config : Config) : Prop where
  outdent : config.outdent = false
  indent : config.indent ≤ 0

variable {t : Tree} {config : Config} {ctx : Context} {descend : Descent} {layers : Layered.Descent} {escape : Bool}

theorem Config.KeepsMargins.layOut_eq (h : config.KeepsMargins) (escape : Bool) (quote : Text) :
    Config.layOut { config with escapeXml := escape } quote = .ok (escaping escape quote) := by
  have hwide : config.indent ≤ Text.storableMargin := Int.le_trans h.indent (by decide)
  have hlayOut := @layOut_of_le { config with escapeXml := escape } hwide quote
  rw [hlayOut, laidOut]
  simp [h.outdent, Int.not_lt.2 h.indent, escaping]

theorem shown_escaping_quoted (escape : Bool) (parts : Layered) :
    Layered.shown (escaping escape) parts.quoted = escaping escape (Layered.shown (escaping escape) parts) := by
  cases escape with
  | false => exact Layered.shown_quoted rfl (fun _ _ => rfl) parts
  | true => exact Layered.shown_quoted rfl Text.Xml.escape_append parts

/-- A marker gives way to its parts, each escaped as often as it is quoted, if going on with a quote does so. -/
theorem resolveReading_eq_shown (hmargins : config.KeepsMargins)
    (h : ∀ marker ctx quote, descend marker ctx quote = Layered.shown (escaping escape) <$> layers marker ctx quote)
    (marker : Text) (reading : Reading) :
    resolveReading t { config with escapeXml := escape } descend ctx marker reading =
      Layered.shown (escaping escape) <$> Layered.ofReading t config layers ctx marker reading := by
  cases reading with
  | prose => simp [resolveReading, Layered.ofReading]
  | faulty token reason => rfl
  | dangling c =>
    simp only [resolveReading, Layered.ofReading]
    split
    · rfl
    · simp
  | found c target =>
    have hlayOut : ∀ resolved, Traced.lift ((Config.layOut { config with escapeXml := escape } resolved).mapError .fault) =
        pure (escaping escape resolved) := by
      intro resolved
      rw [hmargins.layOut_eq]
      rfl
    simp only [resolveReading, Layered.ofReading, map_bind]
    refine bind_congr fun _ => bind_congr fun quote => ?_
    split
    · simp only [h, hlayOut, bind_map_left, map_bind, map_pure, shown_escaping_quoted]
    · simp only [hlayOut, pure_bind, map_pure, shown_escaping_quoted, Layered.shown_plain]

theorem resolveLine_eq_shown (hmargins : config.KeepsMargins)
    (h : ∀ marker ctx quote, descend marker ctx quote = Layered.shown (escaping escape) <$> layers marker ctx quote)
    (line : Text) :
    resolveLine t { config with escapeXml := escape } descend ctx line =
      Layered.shown (escaping escape) <$> Layered.ofLine t config layers ctx line := by
  have hsegment : resolveSegment t { config with escapeXml := escape } descend ctx =
      fun segment => Layered.shown (escaping escape) <$> Layered.ofSegment t config layers ctx segment := by
    funext segment
    cases segment with
    | text content => simp [resolveSegment, Layered.ofSegment]
    | marker body =>
      simp only [resolveSegment, Layered.ofSegment, map_bind]
      exact bind_congr (resolveReading_eq_shown hmargins h _)
  rw [resolveLine, Layered.ofLine, hsegment, Traced.mapM_map_result]
  simp only [Functor.map_map, Layered.shown_flatten]

theorem resolveLines_eq_shown (hmargins : config.KeepsMargins)
    (h : ∀ marker ctx quote, descend marker ctx quote = Layered.shown (escaping escape) <$> layers marker ctx quote)
    (text : Text) :
    resolveLines t { config with escapeXml := escape } descend ctx text =
      Layered.shown (escaping escape) <$> Layered.ofLines t config layers ctx text := by
  have hline : resolveLine t { config with escapeXml := escape } descend ctx =
      fun line => Layered.shown (escaping escape) <$> Layered.ofLine t config layers ctx line :=
    funext (resolveLine_eq_shown hmargins h)
  rw [resolveLines, Layered.ofLines, hline, Traced.mapM_map_result]
  simp only [Functor.map_map, Layered.shown_join]

theorem resolveQuote_eq_shown (hmargins : config.KeepsMargins) (budget : Nat) (marker : Text) (ctx : Context) (quote : Text) :
    resolveQuote t { config with escapeXml := escape } budget marker ctx quote =
      Layered.shown (escaping escape) <$> Layered.ofQuote t config budget marker ctx quote := by
  induction budget generalizing marker ctx quote with
  | zero => rfl
  | succ budget ih =>
    simp only [resolveQuote, Layered.ofQuote, map_bind]
    exact bind_congr fun _ => resolveLines_eq_shown hmargins ih quote

/-- The quote of a citation is made of the same parts whether it is escaped or not, each escaped as often as it is quoted. -/
theorem getQuote_eq_shown (hmargins : config.KeepsMargins) (escape : Bool) (citing : Path) (c : Citation) :
    getQuote t { config with escapeXml := escape } citing c =
      Layered.shown (escaping escape) <$> Layered.ofCitation t config citing c := by
  simp only [getQuote, Layered.ofCitation, map_bind]
  refine bind_congr fun ctx => bind_congr fun reading => ?_
  exact resolveReading_eq_shown hmargins (resolveQuote_eq_shown hmargins _) c.marker reading

/-! ### Escaped once -/

namespace Layered

theorem one_le_of_found {c : Citation} {target : Path} {marker : Text} {parts : Layered}
    (h : (ofReading t config layers ctx marker (.found c target)).outcome = .ok parts) : ∀ part ∈ parts, 1 ≤ part.1 := by
  simp only [ofReading, Traced.outcome_bind, Traced.outcome_note, Traced.outcome_lift] at h
  split at h
  · next quote _ =>
    have hquoted : ∃ inside, quoted inside = parts := by
      split at h
      · rw [Traced.outcome_bind] at h
        split at h
        · exact ⟨_, Except.ok.inj h⟩
        · cases h
      · exact ⟨_, Except.ok.inj h⟩
    obtain ⟨inside, rfl⟩ := hquoted
    intro part hpart
    obtain ⟨⟨depth, text⟩, -, rfl⟩ := List.mem_map.1 hpart
    exact Nat.le_add_left 1 depth
  · cases h

theorem length_escape_shown_le {parts : Layered} (h : ∀ part ∈ parts, 1 ≤ part.1) :
    (Text.Xml.escape (shown id parts)).length ≤ (shown Text.Xml.escape parts).length := by
  induction parts with
  | nil => exact Nat.le_refl 0
  | cons part rest ih =>
    obtain ⟨depth, text⟩ := part
    obtain ⟨more, rfl⟩ : ∃ more, depth = more + 1 := Nat.exists_eq_add_of_le' (h (depth, text) (by simp))
    have hrest := ih fun other hother => h other (List.mem_cons_of_mem _ hother)
    have hpart := Text.Xml.length_le_iterate_escape more (Text.Xml.escape text)
    simp only [shown_cons, Function.iterate_id, id, Text.Xml.escape_append, List.length_append, Function.iterate_succ_apply]
    omega

/-- Parts that stand in quotes are the whole escaped once exactly if those in further quotes hold nothing that is reserved. -/
theorem shown_escape_eq_iff {parts : Layered} (h : ∀ part ∈ parts, 1 ≤ part.1) :
    shown Text.Xml.escape parts = Text.Xml.escape (shown id parts) ↔
      ∀ part ∈ parts, 2 ≤ part.1 → ∀ c ∈ part.2, c ∉ Text.Xml.reserved := by
  induction parts with
  | nil => simp [Text.Xml.escape_eq_flatMap]
  | cons part rest ih =>
    obtain ⟨depth, text⟩ := part
    obtain ⟨more, rfl⟩ : ∃ more, depth = more + 1 := Nat.exists_eq_add_of_le' (h (depth, text) (by simp))
    have hrest : ∀ other ∈ rest, 1 ≤ other.1 := fun other hother => h other (List.mem_cons_of_mem _ hother)
    simp only [shown_cons, Function.iterate_id, id, Text.Xml.escape_append, List.forall_mem_cons, Nat.succ_le_succ_iff]
    rw [← ih hrest, ← Text.Xml.iterate_escape_eq_iff]
    constructor
    · intro hwhole
      -- No part gets shorter by being escaped further, so each of them has to keep its length.
      have hlength := congrArg List.length hwhole
      rw [List.length_append, List.length_append] at hlength
      have hfirst : (Text.Xml.escape text).length ≤ (Text.Xml.escape^[more + 1] text).length := by
        rw [Function.iterate_succ_apply]
        exact Text.Xml.length_le_iterate_escape more (Text.Xml.escape text)
      have hlater := length_escape_shown_le hrest
      have hsame : (Text.Xml.escape^[more + 1] text).length = (Text.Xml.escape text).length := by omega
      exact List.append_inj hwhole hsame
    · rintro ⟨hsame, hlater⟩
      rw [hsame, hlater]

end Layered

/-- The quote of a file that exists succeeds escaped if it does plain. What stands in a single quote is escaped once, and the result is the plain quote escaped once exactly if nothing in further quotes is reserved. -/
theorem getQuote_escaped_once_iff {citing : Path} {c : Citation} {target : Path} {q : Text} (hmargins : config.KeepsMargins)
    (hctx : Context.ofCiting t config.recursive citing = .ok ctx) (hfound : ctx.locate t c.ref = .ok (some target))
    (h : (getQuote t { config with escapeXml := false } citing c).outcome = .ok q) :
    ∃ parts, (Layered.ofCitation t config citing c).outcome = .ok parts ∧ Layered.shown id parts = q ∧
      (getQuote t { config with escapeXml := true } citing c).outcome = .ok (Layered.shown Text.Xml.escape parts) ∧
      ((getQuote t { config with escapeXml := true } citing c).outcome = .ok (Text.Xml.escape q) ↔
        ∀ part ∈ parts, 2 ≤ part.1 → ∀ d ∈ part.2, d ∉ Text.Xml.reserved) := by
  rw [getQuote_eq_shown hmargins, Traced.outcome_map] at h
  obtain ⟨parts, hparts, rfl⟩ := Outcome.map_eq_ok_iff.1 h
  have hescaped : (getQuote t { config with escapeXml := true } citing c).outcome = .ok (Layered.shown Text.Xml.escape parts) := by
    rw [getQuote_eq_shown hmargins, Traced.outcome_map, hparts]
    rfl
  refine ⟨parts, hparts, rfl, hescaped, ?_⟩
  have hread : (Layered.ofReading t config (Layered.ofQuote t config config.maxDepth.toNat) ctx c.marker
      (.found c target)).outcome = .ok parts := by
    simpa [Layered.ofCitation, Traced.outcome_bind, hctx, Reading.ofCitation, hfound, Except.mapError, Except.map] using hparts
  rw [hescaped, Except.ok.injEq]
  exact Layered.shown_escape_eq_iff (Layered.one_le_of_found hread)

def angleTree : Tree :=
  ⟨[], .file "a".toList (Charset.Utf8.encode "[b] >\n".toList) (.file "b".toList (Charset.Utf8.encode "<\n".toList) .empty)⟩

theorem getQuote_angleTree :
    ∃ parts, (Layered.ofCitation angleTree { recursive := true } Path.here ⟨"a".toList, .whole⟩).outcome = .ok parts ∧
      Layered.shown id parts = "< >".toList ∧
      (getQuote angleTree { recursive := true, escapeXml := true } Path.here ⟨"a".toList, .whole⟩).outcome =
        .ok (Layered.shown Text.Xml.escape parts) ∧
      ((getQuote angleTree { recursive := true, escapeXml := true } Path.here ⟨"a".toList, .whole⟩).outcome =
          .ok (Text.Xml.escape "< >".toList) ↔
        ∀ part ∈ parts, 2 ≤ part.1 → ∀ d ∈ part.2, d ∉ Text.Xml.reserved) := by
  have hctx : Context.ofCiting angleTree true Path.here = .ok { baseDir := Path.here, citingFile := Path.here, recursive := true } := by
    decide +kernel
  have hfound : Context.locate angleTree { baseDir := Path.here, citingFile := Path.here, recursive := true } "a".toList =
      .ok (some (Path.ofText "a".toList)) := by decide +kernel
  have hplain : (getQuote angleTree { recursive := true } Path.here ⟨"a".toList, .whole⟩).outcome = .ok "< >".toList := by
    decide +kernel
  have hmargins : Config.KeepsMargins { recursive := true } := ⟨rfl, by decide⟩
  exact getQuote_escaped_once_iff hmargins hctx hfound hplain

/-- What `b` holds stands in two quotes, and the `&` of its entity is escaped again. -/
theorem exists_escaped_twice :
    (Context.ofCiting angleTree true Path.here).bind (fun ctx => ctx.locate angleTree "a".toList) =
        .ok (some (Path.ofText "a".toList)) ∧
      (getQuote angleTree { recursive := true } Path.here ⟨"a".toList, .whole⟩).outcome = .ok "< >".toList ∧
      Text.Xml.escape "< >".toList = "&lt; &gt;".toList ∧
      (getQuote angleTree { recursive := true, escapeXml := true } Path.here ⟨"a".toList, .whole⟩).outcome =
        .ok "&amp;lt; &gt;".toList := by
  decide +kernel

end Quotation
