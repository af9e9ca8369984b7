import Quotation.Proofs.Resolution.FirstFailure
import Quotation.Proofs.Tree.Trail

/-!
# The markers that resolving meets

Resolving a file reads the file itself and then asks the tree about one marker after the other: what it turns out to be and, where it leads to a file, what it quotes. It gets to a marker only if those before it have been resolved, and to the markers of a quote only if quotes are followed (`Meets`). Two trees that give the same answers for the markers that are met in one of them resolve the file in the same way (`resolveFile_congr`).
-/

namespace Quotation

open Outcome

/-- Resolving gets to a marker of the lines: all markers before it have been resolved. -/
def Reaches (t : Tree) (config : Config) (descend : Descent) (ctx : Context) (lines : List Text) (body : Text) : Prop :=
  ∃ earlier later, lines.flatMap Segment.markers = earlier ++ body :: later ∧
    ∀ other ∈ earlier, ∃ replaced, (resolveSegment t config descend ctx (.marker other)).outcome = .ok replaced

/-- Resolving lines meets a marker, in the lines themselves or in a quote, in the surroundings `inner`. -/
inductive Meets (t : Tree) (config : Config) : Nat → Context → List Text → Context → Text → Prop where
  | here {budget : Nat} {ctx : Context} {lines : List Text} {body : Text}
      (reached : Reaches t config (resolveQuote t config budget) ctx lines body) : Meets t config budget ctx lines ctx body
  | nested {budget : Nat} {ctx inner : Context} {lines : List Text} {outer body quote : Text} {c : Citation} {target : Path}
      (reached : Reaches t config (resolveQuote t config (budget + 1)) ctx lines outer)
      (found : Reading.ofBody t ctx outer = .ok (.found c target)) (quoted : t.excerpt config.encoding c target = .ok quote)
      (followed : ctx.recursive = true ∧ Segment.hasMarkers quote = true)
      (met : Meets t config budget (ctx.nested target) (Text.splitOn '\n' quote) inner body) :
      Meets t config (budget + 1) ctx lines inner body

def MeetsIn (t : Tree) (config : Config) (base source : Path) (ctx : Context) (body : Text) : Prop :=
  ∃ lines, t.citedLines config.encoding source = .ok lines ∧
    Meets t config config.maxDepth.toNat { baseDir := base, citingFile := source, recursive := config.recursive } lines ctx body

/-- Two trees give the same answers about a marker. -/
structure ReadsSame (t u : Tree) (config : Config) (ctx : Context) (body : Text) : Prop where
  reading : Reading.ofBody u ctx body = Reading.ofBody t ctx body
  excerpt : ∀ c target, Reading.ofBody t ctx body = .ok (.found c target) →
    u.excerpt config.encoding c target = t.excerpt config.encoding c target

variable {t u : Tree} {config : Config} {descend descend' : Descent} {ctx inner : Context} {lines : List Text} {line body : Text}
  {base file : Path} {budget : Nat}

/-! ### Where markers are met -/

theorem Reaches.mem (h : Reaches t config descend ctx lines body) : body ∈ lines.flatMap Segment.markers := by
  obtain ⟨earlier, later, hlines, -⟩ := h
  simp [hlines]

/-- The citing file of a marker that is met is the first one or has been found for a marker that was met. -/
theorem Meets.citingFile {P : Path → Prop} (h : Meets t config budget ctx lines inner body) (hfirst : P ctx.citingFile)
    (hfound : ∀ inner body c target, Meets t config budget ctx lines inner body →
      Reading.ofBody t inner body = .ok (.found c target) → P target) : P inner.citingFile := by
  induction h with
  | here _ => exact hfirst
  | nested hreached hread hquoted hfollowed _ ih =>
    apply ih
    · exact hfound _ _ _ _ (.here hreached) hread
    · intro inner body c target hmet
      exact hfound inner body c target (.nested hreached hread hquoted hfollowed hmet)

theorem Meets.of_not_recursive (h : Meets t config budget ctx lines inner body) (hflat : ctx.recursive = false) :
    inner = ctx ∧ body ∈ lines.flatMap Segment.markers := by
  cases h with
  | here hreached => exact ⟨rfl, hreached.mem⟩
  | nested _ _ _ hfollowed _ => simp [hflat] at hfollowed

/-- The file that a marker leads to and what is quoted from it, if the markers in there are to be resolved in turn. -/
def followed? (t : Tree) (config : Config) (ctx : Context) (body : Text) : Option (Path × Text) :=
  match Reading.ofBody t ctx body with
  | .ok (.found c target) =>
    match t.excerpt config.encoding c target with
    | .ok quote => if ctx.recursive = true ∧ Segment.hasMarkers quote = true then some (target, quote) else none
    | .error _ => none
  | _ => none

/-- The markers that resolving lines may meet, each in its surroundings, whether resolving gets to them or not. -/
def mayMeet (t : Tree) (config : Config) : Nat → Context → List Text → List (Context × Text)
  | 0, ctx, lines => (lines.flatMap Segment.markers).map fun body => (ctx, body)
  | budget + 1, ctx, lines => (lines.flatMap Segment.markers).flatMap fun body =>
    (ctx, body) :: match followed? t config ctx body with
      | some (target, quote) => mayMeet t config budget (ctx.nested target) (Text.splitOn '\n' quote)
      | none => []

theorem Meets.mem_mayMeet (h : Meets t config budget ctx lines inner body) : (inner, body) ∈ mayMeet t config budget ctx lines := by
  induction h with
  | @here budget ctx lines body hreached =>
    cases budget with
    | zero => exact List.mem_map_of_mem hreached.mem
    | succ budget => exact List.mem_flatMap.2 ⟨body, hreached.mem, List.mem_cons_self⟩
  | @nested budget ctx inner lines outer body quote c target hreached hread hquoted hfollowed _ ih =>
    have hquote : followed? t config ctx outer = some (target, quote) := by
      rw [followed?, hread]
      dsimp only
      rw [hquoted]
      exact if_pos hfollowed
    refine List.mem_flatMap.2 ⟨outer, hreached.mem, List.mem_cons_of_mem _ ?_⟩
    rw [hquote]
    exact ih

theorem exists_of_resolveLine {resolved : Text} (h : (resolveLine t config descend ctx line).outcome = .ok resolved)
    (hbody : body ∈ Segment.markers line) :
    ∃ replaced, (resolveSegment t config descend ctx (.marker body)).outcome = .ok replaced := by
  have hnone := failure?_resolveLine t config descend ctx line
  rw [h, failure?_ok, eq_comm, List.findSome?_eq_none_iff] at hnone
  cases houtcome : (resolveSegment t config descend ctx (.marker body)).outcome with
  | ok replaced => exact ⟨replaced, rfl⟩
  | error failure => simpa [houtcome] using hnone body hbody

theorem exists_of_earlier {before : List Segment} {other : Text}
    (hlines : ∀ line ∈ lines, ∃ resolved, (resolveLine t config descend ctx line).outcome = .ok resolved)
    (hbefore : ∀ segment ∈ before, ∃ replaced, (resolveSegment t config descend ctx segment).outcome = .ok replaced)
    (hother : other ∈ lines.flatMap Segment.markers ++ before.filterMap Segment.body?) :
    ∃ replaced, (resolveSegment t config descend ctx (.marker other)).outcome = .ok replaced := by
  obtain hother | hother := List.mem_append.1 hother
  · obtain ⟨line, hline, hother⟩ := List.mem_flatMap.1 hother
    obtain ⟨resolved, hresolved⟩ := hlines line hline
    exact exists_of_resolveLine hresolved hother
  · obtain ⟨segment, hsegment, hbody⟩ := List.mem_filterMap.1 hother
    cases segment with
    | text content => cases hbody
    | marker body =>
      obtain rfl := Option.some.inj hbody
      exact hbefore _ hsegment

/-! ### The same answers -/

theorem resolveSegment_congr (h : ReadsSame t u config ctx body)
    (hdescend : ∀ c target quote, Reading.ofBody t ctx body = .ok (.found c target) →
      t.excerpt config.encoding c target = .ok quote → ctx.recursive = true → Segment.hasMarkers quote = true →
      descend' (Segment.marker body).toText (ctx.nested target) quote =
        descend (Segment.marker body).toText (ctx.nested target) quote) :
    resolveSegment u config descend' ctx (.marker body) = resolveSegment t config descend ctx (.marker body) := by
  rw [resolveSegment, resolveSegment, h.reading]
  refine Traced.bind_congr fun reading hreading => ?_
  rw [Traced.outcome_lift, mapError_eq_ok_iff] at hreading
  cases reading with
  | prose => rfl
  | faulty token reason => rfl
  | dangling c => rfl
  | found c target =>
    rw [resolveReading, resolveReading, h.excerpt c target hreading]
    refine Traced.bind_congr fun _ _ => Traced.bind_congr fun quote hquote => ?_
    dsimp only
    split
    · next hfollowed =>
      obtain ⟨hrecursive, hmarkers⟩ := Bool.and_eq_true_iff.1 hfollowed
      rw [hdescend c target quote hreading hquote hrecursive hmarkers]
    · rfl

/-- Resolved lines are related as the markers are that resolving gets to on both sides. -/
theorem Traced.Compatible.mapM_resolveLine {R : (α : Type) → Traced α → Traced α → Prop} (hR : Traced.Compatible R)
    {config' : Config} {ctx' : Context}
    (h : ∀ body, Reaches t config descend ctx lines body → Reaches u config' descend' ctx' lines body →
      R Text (resolveSegment u config' descend' ctx' (.marker body)) (resolveSegment t config descend ctx (.marker body))) :
    R (List Text) (lines.mapM (resolveLine u config' descend' ctx')) (lines.mapM (resolveLine t config descend ctx)) := by
  refine hR.mapM fun above line below hlines habove => ?_
  rw [resolveLine, resolveLine]
  refine hR.map (hR.mapM fun before segment after hsplit hbefore => ?_) List.flatten
  cases segment with
  | text content => exact hR.pure content
  | marker body =>
    have hmarkers : lines.flatMap Segment.markers = (above.flatMap Segment.markers ++ before.filterMap Segment.body?) ++
        body :: (after.filterMap Segment.body? ++ below.flatMap Segment.markers) := by
      have hline : Segment.markers line = before.filterMap Segment.body? ++ body :: after.filterMap Segment.body? := by
        rw [Segment.markers, hsplit, List.filterMap_append]
        rfl
      simp [hlines, hline]
    refine h body ⟨_, _, hmarkers, ?_⟩ ⟨_, _, hmarkers, ?_⟩
    · exact fun other => exists_of_earlier (fun line hline => (habove line hline).imp fun _ => And.left)
        fun segment hsegment => (hbefore segment hsegment).imp fun _ => And.left
    · exact fun other => exists_of_earlier (fun line hline => (habove line hline).imp fun _ => And.right)
        fun segment hsegment => (hbefore segment hsegment).imp fun _ => And.right

theorem mapM_resolveLine_congr_of_meets
    (h : ∀ inner body, Meets t config budget ctx lines inner body → ReadsSame t u config inner body) :
    lines.mapM (resolveLine u config (resolveQuote u config budget) ctx) =
      lines.mapM (resolveLine t config (resolveQuote t config budget) ctx) := by
  induction budget generalizing ctx lines with
  | zero =>
    refine Traced.compatible_eq.mapM_resolveLine fun body hreached _ => ?_
    apply resolveSegment_congr (h ctx body (.here hreached))
    intros
    rfl
  | succ budget ih =>
    refine Traced.compatible_eq.mapM_resolveLine fun body hreached _ => ?_
    apply resolveSegment_congr (h ctx body (.here hreached))
    intro c target quote hfound hquoted hrecursive hmarkers
    rw [resolveQuote, resolveQuote, resolveLines, resolveLines, ih]
    intro inner body hmet
    exact h inner body (.nested hreached hfound hquoted ⟨hrecursive, hmarkers⟩ hmet)

/-- A file is resolved in the same way in a tree that gives the same answers about what is met. -/
theorem resolveFile_congr
    (hsource : u.citedLines config.encoding (base.within file) = t.citedLines config.encoding (base.within file))
    (h : ∀ ctx body, MeetsIn t config base (base.within file) ctx body → ReadsSame t u config ctx body) :
    resolveFile u config base file = resolveFile t config base file := by
  have hbody : resolveSource u config base (base.within file) = resolveSource t config base (base.within file) := by
    rw [resolveSource, resolveSource, hsource]
    refine Traced.bind_congr fun lines hlines => ?_
    dsimp only
    rw [resolveNested, resolveNested, mapM_resolveLine_congr_of_meets]
    intro inner body hmet
    exact h inner body ⟨lines, hlines, hmet⟩
  rw [resolveFile, resolveFile, hbody]

/-! ### Where markers are looked up -/

/-- The paths that a reference is looked up at: the candidates up to the first that is a file. -/
def Context.probed (t : Tree) (ctx : Context) (ref : Text) : List Path :=
  match ctx.candidates t ref with
  | .ok paths => (paths.takeWhile fun p => !t.isFile p) ++ (paths.find? t.isFile).toList
  | .error _ => []

/-- The reference that a marker is looked up by; one with a number of too many digits is not looked up. -/
def Reading.ref? (body : Text) : Option Text :=
  match Citation.parse body with
  | .ok c => some c.ref
  | .error (.tooManyDigits _) => none
  | .error (.malformed ..) => some (Citation.refOf body)

def Reading.probed (t : Tree) (ctx : Context) (body : Text) : List Path :=
  match ref? body with
  | some ref => ctx.probed t ref
  | none => []

theorem Reading.ofBody_congr (h : ∀ ref, ref? body = some ref → ctx.locate u ref = ctx.locate t ref) :
    ofBody u ctx body = ofBody t ctx body := by
  rw [ofBody, ofBody]
  rw [ref?] at h
  cases hparse : Citation.parse body with
  | ok c =>
    rw [hparse] at h
    dsimp only
    rw [ofCitation, ofCitation, h c.ref rfl]
  | error e =>
    rw [hparse] at h
    cases e with
    | tooManyDigits count => rfl
    | malformed token reason =>
      dsimp only
      rw [h _ rfl]

theorem Context.find?_congr {α : Type} {f g : α → Bool} {xs : List α}
    (h : ∀ x ∈ (xs.takeWhile fun x => !f x) ++ (xs.find? f).toList, g x = f x) : xs.find? g = xs.find? f := by
  induction xs with
  | nil => rfl
  | cons x xs ih =>
    have hsame : g x = f x := h x (by cases hx : f x <;> simp [hx])
    rw [List.find?_cons, List.find?_cons, hsame]
    cases hx : f x with
    | true => rfl
    | false =>
      apply ih
      intro y hy
      apply h
      rw [List.takeWhile_cons_of_pos (by simp [hx]), List.find?_cons, hx]
      exact List.mem_cons_of_mem x hy

theorem Context.locate_congr {ref : Text} (hciting : u.entry ctx.citingFile = t.entry ctx.citingFile)
    (h : ∀ p ∈ ctx.probed t ref, u.entry p = t.entry p) : ctx.locate u ref = ctx.locate t ref := by
  have hcandidates : ctx.candidates u ref = ctx.candidates t ref := by
    rw [candidates, candidates, citingDir, citingDir, Tree.isDir_of_entry_eq hciting]
  rw [locate, locate, hcandidates]
  rw [probed] at h
  cases hpaths : ctx.candidates t ref with
  | error fault => rfl
  | ok paths =>
    rw [hpaths] at h
    refine congrArg Except.ok (find?_congr fun p hp => ?_)
    exact Tree.isFile_of_entry_eq (h p hp)

theorem Reading.mem_probed_of_found {c : Citation} {target : Path} (h : ofBody t ctx body = .ok (.found c target)) :
    target ∈ probed t ctx body := by
  obtain ⟨hparse, hlocate⟩ := describes_of_ofBody h
  obtain ⟨paths, hpaths, hfind⟩ := map_eq_ok_iff.1 hlocate
  rw [probed, ref?, hparse]
  dsimp only
  rw [Context.probed, hpaths]
  dsimp only
  rw [hfind]
  simp

/-- Trees that have the same at the citing file and wherever a marker is looked up give the same answers about it. -/
theorem readsSame_of_entry_eq (hciting : u.entry ctx.citingFile = t.entry ctx.citingFile)
    (h : ∀ p ∈ Reading.probed t ctx body, u.entry p = t.entry p) : ReadsSame t u config ctx body := by
  constructor
  · refine Reading.ofBody_congr fun ref href => Context.locate_congr hciting ?_
    rw [Reading.probed, href] at h
    exact h
  · intro c target hfound
    exact Tree.excerpt_of_entry_eq (h target (Reading.mem_probed_of_found hfound)) c

theorem Reading.ofBody_of_sameKinds (h : Tree.SameKinds t u) (ctx : Context) (body : Text) :
    ofBody u ctx body = ofBody t ctx body := by
  refine ofBody_congr fun ref _ => ?_
  have hfile : u.isFile = t.isFile := funext (Tree.isFile_of_sameKinds h)
  rw [Context.locate, Context.locate, Context.candidates, Context.candidates, Context.citingDir, Context.citingDir,
    Tree.isDir_of_sameKinds h, hfile]

end Quotation
