import Quotation.Proofs.Citation.Grammar
import Quotation.Proofs.Resolution.Met
import Quotation.Proofs.Tree.Limits

/-!
# References that lead nowhere

A marker whose reference leads to no file stays as it is, whether it is a citation or prose. So where no marker leads anywhere, a text comes out as it went in: every segment keeps its characters and counts no citation (`Traced.Keeps`), the segments make up the line that they were cut from, and the lines the text.
-/

namespace Quotation

open Outcome

/-- No marker of the lines leads to a file, and none has a number of too many digits. -/
def LeadsNowhere (t : Tree) (ctx : Context) (lines : List Text) : Prop :=
  ∀ body ∈ lines.flatMap Segment.markers, Citation.NumberFieldsFit body ∧
    ∀ ref, Reading.ref? body = some ref → ∀ target, ctx.locate t ref ≠ .ok (some target)

namespace Traced

variable {α β : Type}

/-- A computation succeeds with a result, without quoting anything. -/
def Keeps (x : Traced α) (a : α) : Prop := x.outcome = .ok a ∧ citationCount x.events = 0

theorem keeps_pure (a : α) : Keeps (pure a) a := ⟨rfl, rfl⟩

theorem Keeps.bind {x : Traced α} {a : α} {next : α → Traced β} {b : β} (h : Keeps x a) (hnext : Keeps (next a) b) :
    Keeps (x >>= next) b := by
  rw [Keeps, bind_of_ok h.1]
  refine ⟨hnext.1, ?_⟩
  rw [citationCount, List.countP_append]
  exact Nat.add_eq_zero_iff.2 ⟨h.2, hnext.2⟩

theorem Keeps.map {x : Traced α} {a : α} (h : Keeps x a) (f : α → β) : Keeps (f <$> x) (f a) := h.bind (keeps_pure (f a))

theorem Keeps.mapM {f : α → Traced β} {g : α → β} {xs : List α} (h : ∀ x ∈ xs, Keeps (f x) (g x)) : Keeps (xs.mapM f) (xs.map g) := by
  induction xs with
  | nil => exact keeps_pure []
  | cons x xs ih =>
    obtain ⟨hx, hxs⟩ := List.forall_mem_cons.1 h
    rw [List.mapM_cons]
    exact hx.bind ((ih hxs).bind (keeps_pure (g x :: xs.map g)))

end Traced

open Traced

variable {t : Tree} {config : Config} {descend : Descent} {ctx : Context} {base file citing : Path} {lines : List Text} {body : Text}
  {found : Bool}

/-! ### Markers and lines -/

theorem resolveSegment_keeps (hlenient : config.failOnUnresolved = false) (hdir : t.isDir ctx.citingFile = .ok found)
    (hfit : Citation.NumberFieldsFit body) (h : ∀ ref, Reading.ref? body = some ref → ∀ target, ctx.locate t ref ≠ .ok (some target)) :
    Keeps (resolveSegment t config descend ctx (.marker body)) (Segment.marker body).toText := by
  obtain ⟨reading, hreading⟩ := Reading.exists_ofBody hdir fun count hparse => Citation.isOwnReason_of_parse hfit hparse
  have hdescribes := Reading.describes_of_ofBody hreading
  rw [Reading.ref?] at h
  have hlift : Keeps (lift ((Reading.ofBody t ctx body).mapError .fault)) reading := ⟨by rw [outcome_lift, hreading]; rfl, rfl⟩
  rw [resolveSegment]
  refine hlift.bind ?_
  cases reading with
  | prose => exact ⟨rfl, rfl⟩
  | dangling c =>
    rw [resolveReading, hlenient]
    exact ⟨rfl, rfl⟩
  | faulty token reason =>
    obtain ⟨hparse, target, htarget⟩ := hdescribes
    rw [hparse] at h
    exact absurd htarget (h _ rfl target)
  | found c target =>
    obtain ⟨hparse, htarget⟩ := hdescribes
    rw [hparse] at h
    exact absurd htarget (h _ rfl target)

theorem resolveLines_keeps (descend : Descent) (hlenient : config.failOnUnresolved = false) (hdir : t.isDir ctx.citingFile = .ok found)
    (h : LeadsNowhere t ctx lines) : Keeps (lines.mapM (resolveLine t config descend ctx)) lines := by
  have hline : ∀ line ∈ lines, Keeps (resolveLine t config descend ctx line) line := by
    intro line hmem
    have hsegments : Keeps ((Segment.split line).mapM (resolveSegment t config descend ctx)) ((Segment.split line).map Segment.toText) := by
      refine Keeps.mapM fun segment hsegment => ?_
      cases segment with
      | text content => exact keeps_pure content
      | marker body =>
        have hbody : body ∈ Segment.markers line := List.mem_filterMap.2 ⟨_, hsegment, rfl⟩
        obtain ⟨hfit, hnowhere⟩ := h body (List.mem_flatMap.2 ⟨line, hmem, hbody⟩)
        exact resolveSegment_keeps hlenient hdir hfit hnowhere
    have hwhole : ((Segment.split line).map Segment.toText).flatten = line := by
      rw [← List.flatMap_def]
      exact Segment.joinAll_split line
    have hjoined := hsegments.map List.flatten
    rwa [hwhole] at hjoined
  have hlines := Keeps.mapM hline
  rwa [List.map_id'] at hlines

theorem leadsNowhere_of_locate (h : ∀ body ∈ lines.flatMap Segment.markers,
    body.length ≤ Text.digitLimit ∧ ∀ ref ∈ Reading.ref? body, ctx.locate t ref = .ok none) : LeadsNowhere t ctx lines := by
  intro body hbody
  obtain ⟨hlength, hlocate⟩ := h body hbody
  refine ⟨Citation.numberFieldsFit_of_length_le hlength, fun ref href target htarget => ?_⟩
  cases (hlocate ref href).symm.trans htarget

/-! ### Texts and files -/

theorem resolveText_of_leadsNowhere (hlenient : config.failOnUnresolved = false)
    (hctx : Context.ofCiting t config.recursive citing = .ok ctx) {text : Text} (h : LeadsNowhere t ctx (Text.splitOn '\n' text)) :
    (resolveText t config citing text).outcome = .ok text := by
  obtain ⟨found, hdir⟩ := Context.isDir_of_ofCiting hctx
  have hlines := resolveLines_keeps (resolveNested t config) hlenient hdir h
  have htext := hlines.map (Text.join '\n')
  rw [Text.join_splitOn] at htext
  rw [resolveText, hctx]
  exact htext.1

def FileLeadsNowhere (t : Tree) (config : Config) (base file : Path) (lines : List Text) : Prop :=
  t.readLines (base.within file) config.encoding = .ok lines ∧
    LeadsNowhere t { baseDir := base, citingFile := base.within file, recursive := config.recursive } lines

theorem resolveFile_of_leadsNowhere (hlenient : config.failOnUnresolved = false) (h : FileLeadsNowhere t config base file lines) :
    ∃ unresolved, (resolveFile t config base file).outcome = .ok ⟨base.within file, lines, false, 0, unresolved⟩ := by
  obtain ⟨hread, hnowhere⟩ := h
  have hcited := Tree.citedLines_eq_ok_iff.2 hread
  obtain ⟨content, hcontent⟩ := Tree.exists_read_of_citedLines hcited
  have hlines := resolveLines_keeps (resolveNested t config) hlenient (Tree.isDir_of_read hcontent) hnowhere
  have hsame : lines.flatMap (Text.splitOn '\n') = lines := Text.flatMap_splitOn_of_not_mem (Tree.not_mem_of_readLines hread)
  have hsource : Keeps (resolveSource t config base (base.within file)) (lines, lines) := by
    have hlift : Keeps (lift (t.citedLines config.encoding (base.within file))) lines := ⟨hcited, rfl⟩
    refine hlift.bind (hlines.bind ?_)
    rw [hsame]
    exact keeps_pure (lines, lines)
  refine ⟨unresolvedMarkers (resolveSource t config base (base.within file)).events, ?_⟩
  rw [resolveFile, hsource.1, hsource.2]
  simp [Except.map, Except.mapError]

end Quotation
