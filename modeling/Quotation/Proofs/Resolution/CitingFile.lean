import Quotation.Proofs.Resolution.Met
import Quotation.Proofs.Tree.SameFile

/-!
# Who cites a file

The citing file tells where a reference leads, and has no part in what is quoted from there. Inside a quote references are looked up from the quoted file, so two quotes of one file stand in surroundings that differ in how this file is written only (`Context.InSameFile`). Every marker leads to the same file from both, and what holds of the markers goes on to lines and to the quotes within them (`resolveLines_endsAlike`).
-/

namespace Quotation

open Outcome

/-- What kind of failure it is: the kind of citation error, or the fault. -/
def Failure.kind : Failure → String ⊕ Fault
  | .citation complaint => .inl complaint.error.kind
  | .fault f => .inr f

namespace Traced

variable {α β : Type}

/-- Two computations end with the same result, or with failures of the same kind. -/
def EndsAlike (y x : Traced α) : Prop := y.outcome.mapError Failure.kind = x.outcome.mapError Failure.kind

theorem EndsAlike.refl (x : Traced α) : EndsAlike x x := rfl

theorem EndsAlike.bind {x y : Traced α} {next later : α → Traced β} (h : EndsAlike y x)
    (hnext : ∀ a, x.outcome = .ok a → y.outcome = .ok a → EndsAlike (later a) (next a)) : EndsAlike (y >>= later) (x >>= next) := by
  rw [EndsAlike, outcome_bind, outcome_bind]
  rw [EndsAlike] at h
  cases hx : x.outcome with
  | ok a =>
    rw [hx] at h
    have hy : y.outcome = .ok a := mapError_eq_ok_iff.1 h
    rw [hy]
    exact hnext a hx hy
  | error failure =>
    rw [hx] at h
    cases hy : y.outcome with
    | ok a => simp [hy, Except.mapError] at h
    | error other => exact congrArg Except.error (Except.error.inj (hy ▸ h))

theorem compatible_endsAlike : Compatible fun _ => EndsAlike := ⟨fun a => .refl (pure a), EndsAlike.bind⟩

end Traced

open Traced

variable {t : Tree} {config : Config} {descend descend' : Descent} {ctx ctx' : Context} {p q path other citing : Path}
  {c c' : Citation} {marker marker' body quote ref : Text} {lines : List Text} {budget : Nat}

/-! ### Surroundings -/

namespace Context

/-- Both surroundings are those of quotes, from files that are the same. -/
structure InSameFile (t : Tree) (ctx ctx' : Context) : Prop where
  same : t.SameFile ctx.citingFile ctx'.citingFile
  base : ctx.baseDir = ctx.citingFile.parent
  base' : ctx'.baseDir = ctx'.citingFile.parent
  recursive : ctx'.recursive = ctx.recursive

theorem inSameFile_nested (h : t.SameFile p q) (hrecursive : ctx'.recursive = ctx.recursive) :
    InSameFile t (ctx.nested p) (ctx'.nested q) := ⟨h, rfl, rfl, hrecursive⟩

theorem candidates_of_isFile (hfile : t.isFile ctx.citingFile = true) (hbase : ctx.baseDir = ctx.citingFile.parent) (ref : Text) :
    ctx.candidates t ref = .ok [ctx.citingFile.parent.within (Path.ofText ref)] ∨
      ctx.candidates t ref =
        .ok [ctx.citingFile.parent.within (Path.ofText ref), ctx.citingFile.parent.within (Path.ofText ref)] := by
  obtain ⟨content, hread⟩ := Tree.exists_read_of_isFile hfile
  cases habsolute : (Path.ofText ref).isAbsolute with
  | true => exact .inl (by simp [candidates, habsolute])
  | false => exact .inr (by simp [candidates, habsolute, citingDir_of_read hread, hbase, Except.map])

theorem locate_of_isFile (hfile : t.isFile ctx.citingFile = true) (hbase : ctx.baseDir = ctx.citingFile.parent) (ref : Text) :
    ctx.locate t ref = .ok (if t.isFile (ctx.citingFile.parent.within (Path.ofText ref))
      then some (ctx.citingFile.parent.within (Path.ofText ref)) else none) := by
  obtain hpaths | hpaths := candidates_of_isFile hfile hbase ref <;> rw [locate, hpaths] <;>
    cases hfound : t.isFile (ctx.citingFile.parent.within (Path.ofText ref)) <;> simp [Except.map, hfound]

theorem mem_probed_of_isFile (hfile : t.isFile ctx.citingFile = true) (hbase : ctx.baseDir = ctx.citingFile.parent) (ref : Text) :
    ctx.citingFile.parent.within (Path.ofText ref) ∈ ctx.probed t ref := by
  obtain hpaths | hpaths := candidates_of_isFile hfile hbase ref <;> rw [probed, hpaths] <;>
    cases hfound : t.isFile (ctx.citingFile.parent.within (Path.ofText ref)) <;> simp [hfound]

/-- From quotes of the same file a reference leads to the same file. -/
theorem InSameFile.locate (h : InSameFile t ctx ctx') (hcwd : t.isFile Path.here = false)
    (hshort : ∀ path ∈ ctx.probed t ref, path.IsShort) (hshort' : ∀ path ∈ ctx'.probed t ref, path.IsShort) :
    (ctx.locate t ref = .ok none ∧ ctx'.locate t ref = .ok none) ∨
      ∃ p q, t.SameFile p q ∧ ctx.locate t ref = .ok (some p) ∧ ctx'.locate t ref = .ok (some q) := by
  have hreach := h.same.reach_within hcwd (hshort _ (mem_probed_of_isFile h.same.file h.base ref))
    (hshort' _ (mem_probed_of_isFile h.same.isFile h.base' ref))
  have hfiles : t.isFile (ctx'.citingFile.parent.within (Path.ofText ref)) =
      t.isFile (ctx.citingFile.parent.within (Path.ofText ref)) := by
    rw [Tree.isFile, Tree.isFile, Tree.entry, Tree.entry, hreach]
  rw [locate_of_isFile h.same.file h.base, locate_of_isFile h.same.isFile h.base', hfiles]
  cases hfound : t.isFile (ctx.citingFile.parent.within (Path.ofText ref)) with
  | false => exact .inl ⟨rfl, rfl⟩
  | true => exact .inr ⟨_, _, ⟨hfound, hreach⟩, rfl, rfl⟩

end Context

/-- In quotes of the same file a marker turns out to be the same thing, and to lead to the same file. -/
theorem Reading.ofBody_eq_or_found (h : ctx.InSameFile t ctx') (hcwd : t.isFile Path.here = false)
    (hshort : ∀ path ∈ probed t ctx body, path.IsShort) (hshort' : ∀ path ∈ probed t ctx' body, path.IsShort) :
    (ofBody t ctx' body = ofBody t ctx body ∧ ∀ c target, ofBody t ctx body ≠ .ok (.found c target)) ∨
      ∃ c p q, t.SameFile p q ∧ ofBody t ctx body = .ok (.found c p) ∧ ofBody t ctx' body = .ok (.found c q) := by
  rw [probed] at hshort hshort'
  rw [ofBody, ofBody]
  rw [ref?] at hshort hshort'
  cases hparse : Citation.parse body with
  | ok c =>
    rw [hparse] at hshort hshort'
    obtain ⟨hnone, hnone'⟩ | ⟨p, q, hsame, hfound, hfound'⟩ := h.locate hcwd hshort hshort'
    · refine .inl ⟨?_, ?_⟩ <;> simp [ofCitation, hnone, hnone', Except.map]
    · exact .inr ⟨c, p, q, hsame, by simp [ofCitation, hfound, Except.map], by simp [ofCitation, hfound', Except.map]⟩
  | error e =>
    rw [hparse] at hshort hshort'
    cases e with
    | tooManyDigits count => exact .inl ⟨rfl, by simp⟩
    | malformed token reason =>
      obtain ⟨hnone, hnone'⟩ | ⟨p, q, -, hfound, hfound'⟩ := h.locate hcwd hshort hshort'
      · refine .inl ⟨?_, ?_⟩ <;> simp [hnone, hnone', Except.map]
      · refine .inl ⟨?_, ?_⟩ <;> simp [hfound, hfound', Except.map]

/-! ### Quotes -/

theorem Tree.SameFile.excerpt {encoding : Option Text} (h : t.SameFile p q) (hpassage : c'.passage = c.passage) :
    (t.excerpt encoding c' q).mapError Failure.kind = (t.excerpt encoding c p).mapError Failure.kind := by
  have hread : t.readLines q encoding = t.readLines p encoding := by
    rw [readLines, readLines, readText, readText, read, read, h.reach]
  rw [Tree.excerpt, Tree.excerpt, citedLines, citedLines, hread]
  cases t.readLines p encoding with
  | error fault => cases fault <;> rfl
  | ok lines =>
    have hkind := Excerpt.kind_of_extract hpassage lines
    change ((Excerpt.extract lines c').mapError CitationError.failure).mapError Failure.kind =
      ((Excerpt.extract lines c).mapError CitationError.failure).mapError Failure.kind
    have hfailure : ∀ x : Except CitationError Text, (x.mapError CitationError.failure).mapError Failure.kind =
        (x.mapError CitationError.kind).mapError (Sum.inl : String → String ⊕ Fault) := by
      intro x
      cases x <;> rfl
    rw [hfailure, hfailure, hkind]

theorem resolveReading_endsAlike (hsame : t.SameFile p q) (hpassage : c'.passage = c.passage)
    (hrecursive : ctx'.recursive = ctx.recursive)
    (hdescend : ∀ quote, t.excerpt config.encoding c p = .ok quote → t.excerpt config.encoding c' q = .ok quote →
      ctx.recursive = true → Segment.hasMarkers quote = true →
      EndsAlike (descend' marker' (ctx'.nested q) quote) (descend marker (ctx.nested p) quote)) :
    EndsAlike (resolveReading t config descend' ctx' marker' (.found c' q))
      (resolveReading t config descend ctx marker (.found c p)) := by
  have hnote : EndsAlike (note (.cited marker' q)) (note (.cited marker p)) := rfl
  have hexcerpt : EndsAlike (lift (t.excerpt config.encoding c' q)) (lift (t.excerpt config.encoding c p)) := hsame.excerpt hpassage
  refine hnote.bind fun _ _ _ => hexcerpt.bind fun quote hquote hquote' => ?_
  dsimp only
  rw [hrecursive]
  split
  · next hfollowed =>
    obtain ⟨hfollow, hmarkers⟩ := Bool.and_eq_true_iff.1 hfollowed
    exact (hdescend quote hquote hquote' hfollow hmarkers).bind fun resolved _ _ => .refl _
  · exact .refl _

theorem resolveQuote_endsAlike
    (h : ∀ further, budget = further + 1 →
      EndsAlike ((Text.splitOn '\n' quote).mapM (resolveLine t config (resolveQuote t config further) ctx'))
        ((Text.splitOn '\n' quote).mapM (resolveLine t config (resolveQuote t config further) ctx))) :
    EndsAlike (resolveQuote t config budget marker' ctx' quote) (resolveQuote t config budget marker ctx quote) := by
  cases budget with
  | zero => rfl
  | succ further =>
    have hnote : EndsAlike (note (.entered ctx'.citingFile ctx'.depth)) (note (.entered ctx.citingFile ctx.depth)) := rfl
    exact hnote.bind fun _ _ _ => compatible_endsAlike.map (h further rfl) (Text.join '\n')

/-- The references of the markers that resolving meets are looked up at paths that are not too long. -/
def LooksShort (t : Tree) (config : Config) (budget : Nat) (ctx : Context) (lines : List Text) : Prop :=
  ∀ inner body, Meets t config budget ctx lines inner body → ∀ path ∈ Reading.probed t inner body, path.IsShort

/-- In quotes of the same file the same lines end alike. -/
theorem resolveLines_endsAlike (hcwd : t.isFile Path.here = false) (hin : ctx.InSameFile t ctx')
    (hshort : LooksShort t config budget ctx lines) (hshort' : LooksShort t config budget ctx' lines) :
    EndsAlike (lines.mapM (resolveLine t config (resolveQuote t config budget) ctx'))
      (lines.mapM (resolveLine t config (resolveQuote t config budget) ctx)) := by
  induction budget using Nat.strong_induction_on generalizing ctx ctx' lines with
  | _ budget ih =>
  refine compatible_endsAlike.mapM_resolveLine fun body hreached hreached' => ?_
  rw [resolveSegment, resolveSegment]
  obtain ⟨hreading, hnone⟩ | ⟨c, p, q, hsame, hfound, hfound'⟩ := Reading.ofBody_eq_or_found hin hcwd
    (hshort ctx body (.here hreached)) (hshort' ctx' body (.here hreached'))
  · rw [hreading]
    refine (EndsAlike.refl _).bind fun reading hok _ => ?_
    rw [outcome_lift, mapError_eq_ok_iff] at hok
    cases reading with
    | found c target => exact absurd hok (hnone c target)
    | _ => exact .refl _
  · rw [hfound, hfound']
    refine resolveReading_endsAlike hsame rfl hin.recursive fun quote hquote hquote' hfollow hmarkers => ?_
    refine resolveQuote_endsAlike fun further hbudget => ?_
    subst hbudget
    refine ih further (Nat.lt_succ_self further) (Context.inSameFile_nested hsame hin.recursive) ?_ ?_
    · exact fun inner body hmet => hshort inner body (.nested hreached hfound hquote ⟨hfollow, hmarkers⟩ hmet)
    · intro inner body hmet
      exact hshort' inner body (.nested hreached' hfound' hquote' ⟨hin.recursive.trans hfollow, hmarkers⟩ hmet)

/-! ### Single citations -/

def QuoteLooksUp (t : Tree) (config : Config) (citing : Path) (c : Citation) (path : Path) : Prop :=
  ∃ ctx target quote budget inner body, Context.ofCiting t config.recursive citing = .ok ctx ∧
    ctx.locate t c.ref = .ok (some target) ∧ t.excerpt config.encoding c target = .ok quote ∧
    (ctx.recursive = true ∧ Segment.hasMarkers quote = true) ∧ config.maxDepth.toNat = budget + 1 ∧
    Meets t config budget (ctx.nested target) (Text.splitOn '\n' quote) inner body ∧ path ∈ Reading.probed t inner body

/-- A reference that leads from the root to the file that a path leads to. -/
structure Tree.IsAbsoluteRef (t : Tree) (ref : Text) (p : Path) : Prop where
  absolute : (Path.ofText ref).isAbsolute = true
  reach : t.reach (Path.ofText ref) = t.reach p

theorem Tree.isAbsoluteRef_of_absolute (hcwd : t.reach (Path.ofPlace t.cwd) = .ok t.cwd) (hfile : t.isFile p = true)
    (hshort : (t.absolute p).IsShort) (href : Path.ofText ref = t.absolute p) : t.IsAbsoluteRef ref p := by
  obtain ⟨content, hread⟩ := exists_read_of_isFile hfile
  obtain ⟨place, hplace, -⟩ := entryAt_eq_ok_iff.1 (read_eq_ok_iff.1 hread)
  refine ⟨?_, ?_⟩ <;> rw [href]
  · exact t.isAbsolute_absolute p
  · exact (reach_absolute hcwd hshort hplace).trans hplace.symm

theorem forall_quoteLooksUp {P : Path → Prop} {target : Path} (hctx : Context.ofCiting t config.recursive citing = .ok ctx)
    (hfound : ctx.locate t c.ref = .ok (some target)) (hquote : t.excerpt config.encoding c target = .ok quote)
    (h : ∀ met ∈ mayMeet t config (config.maxDepth.toNat - 1) (ctx.nested target) (Text.splitOn '\n' quote),
      ∀ path ∈ Reading.probed t met.1 met.2, P path) : ∀ path, QuoteLooksUp t config citing c path → P path := by
  rintro path ⟨ctx', target', quote', budget, inner, body, hctx', hfound', hquote', -, hbudget, hmet, hpath⟩
  obtain rfl := Except.ok.inj (hctx.symm.trans hctx')
  obtain rfl := Option.some.inj (Except.ok.inj (hfound.symm.trans hfound'))
  obtain rfl := Except.ok.inj (hquote.symm.trans hquote')
  rw [hbudget] at h
  exact h (inner, body) hmet.mem_mayMeet path hpath

theorem getQuote_of_locate (hctx : Context.ofCiting t config.recursive citing = .ok ctx) (hfound : ctx.locate t c.ref = .ok (some p)) :
    getQuote t config citing c = resolveReading t config (resolveNested t config) ctx c.marker (.found c p) := by
  rw [getQuote, hctx]
  change (lift ((Reading.ofCitation t ctx c).mapError .fault) >>= _) = _
  rw [Reading.ofCitation, hfound]
  rfl

/-- What a citation quotes depends on the file that it leads to: citing the file from anywhere else by an absolute path gives the same quote, or fails in the same way. -/
theorem getQuote_of_absolute (hcwd : t.isFile Path.here = false) (hctx : Context.ofCiting t config.recursive citing = .ok ctx)
    (hfound : ctx.locate t c.ref = .ok (some p)) (hother : other.WithinLimits) (href : t.IsAbsoluteRef ref p)
    (hshort : ∀ path, QuoteLooksUp t config citing c path → path.IsShort)
    (hshort' : ∀ path, QuoteLooksUp t config other { c with ref := ref } path → path.IsShort) :
    (getQuote t config other { c with ref := ref }).outcome.mapError Failure.kind =
      (getQuote t config citing c).outcome.mapError Failure.kind := by
  obtain ⟨ctx', hctx'⟩ := Context.exists_ofCiting t config.recursive hother
  have hrecursive : ctx'.recursive = ctx.recursive :=
    (Context.recursive_of_ofCiting hctx').trans (Context.recursive_of_ofCiting hctx).symm
  have hsame : t.SameFile p (Path.ofText ref) := ⟨Context.isFile_of_locate hfound, href.reach⟩
  have hfound' : ctx'.locate t ref = .ok (some (Path.ofText ref)) := by
    simp [Context.locate, Context.candidates, href.absolute, hsame.isFile, Except.map]
  rw [getQuote_of_locate hctx hfound, getQuote_of_locate (c := { c with ref := ref }) hctx' hfound']
  refine resolveReading_endsAlike hsame rfl hrecursive fun quote hquote hquote' hfollow hmarkers => ?_
  refine resolveQuote_endsAlike fun further hbudget => ?_
  refine resolveLines_endsAlike hcwd (Context.inSameFile_nested hsame hrecursive) ?_ ?_
  · intro inner body hmet path hpath
    exact hshort path ⟨ctx, p, quote, further, inner, body, hctx, hfound, hquote, ⟨hfollow, hmarkers⟩, hbudget, hmet, hpath⟩
  · intro inner body hmet path hpath
    exact hshort' path ⟨ctx', _, quote, further, inner, body, hctx', hfound', hquote', ⟨hrecursive.trans hfollow, hmarkers⟩,
      hbudget, hmet, hpath⟩

/-- In the working directory `w`, `x/b` quotes `y/c` by way of its own directory, and that quotes its neighbour `e`. -/
def neighbourTree : Tree :=
  ⟨["w".toList], .folder "w".toList
    (.folder "x".toList (.file "b".toList (Charset.Utf8.encode "[../y/c] [gone]\n".toList) .empty)
      (.folder "y".toList
        (.file "c".toList (Charset.Utf8.encode "[e]\n".toList) (.file "e".toList (Charset.Utf8.encode "z\n".toList) .empty))
        (.file "a".toList [] .empty))) .empty⟩

theorem getQuote_of_absolute_in_neighbourTree :
    let config : Config := { recursive := true }
    (getQuote neighbourTree config (Path.ofText "a".toList) ⟨"x/b".toList, .whole⟩).outcome = .ok "z [gone]".toList ∧
      (getQuote neighbourTree config (Path.ofText "no/where".toList) ⟨"/w/x/b".toList, .whole⟩).outcome.mapError Failure.kind =
        .ok "z [gone]".toList := by
  intro config
  have hquote : (getQuote neighbourTree config (Path.ofText "a".toList) ⟨"x/b".toList, .whole⟩).outcome =
      .ok "z [gone]".toList := by decide +kernel
  refine ⟨hquote, ?_⟩
  have hctx : Context.ofCiting neighbourTree true (Path.ofText "a".toList) =
      .ok { baseDir := Path.here, citingFile := Path.ofText "a".toList, recursive := true } := by decide +kernel
  have hctx' : Context.ofCiting neighbourTree true (Path.ofText "no/where".toList) =
      .ok { baseDir := Path.ofText "no".toList, citingFile := Path.ofText "no/where".toList, recursive := true } := by
    decide +kernel
  have hfound : Context.locate neighbourTree { baseDir := Path.here, citingFile := Path.ofText "a".toList, recursive := true }
      "x/b".toList = .ok (some (Path.ofText "x/b".toList)) := by decide +kernel
  have hfound' : Context.locate neighbourTree
      { baseDir := Path.ofText "no".toList, citingFile := Path.ofText "no/where".toList, recursive := true }
      "/w/x/b".toList = .ok (some (Path.ofText "/w/x/b".toList)) := by decide +kernel
  have hexcerpt : neighbourTree.excerpt config.encoding ⟨"x/b".toList, .whole⟩ (Path.ofText "x/b".toList) =
      .ok "[../y/c] [gone]".toList := by decide +kernel
  have hexcerpt' : neighbourTree.excerpt config.encoding ⟨"/w/x/b".toList, .whole⟩ (Path.ofText "/w/x/b".toList) =
      .ok "[../y/c] [gone]".toList := by decide +kernel
  have href : neighbourTree.IsAbsoluteRef "/w/x/b".toList (Path.ofText "x/b".toList) :=
    Tree.isAbsoluteRef_of_absolute (by decide +kernel) (Context.isFile_of_locate hfound) (by decide) (by decide)
  have habsolute := getQuote_of_absolute (by decide +kernel) hctx hfound (show (Path.ofText "no/where".toList).WithinLimits by decide)
    href (forall_quoteLooksUp hctx hfound hexcerpt (by decide +kernel))
    (forall_quoteLooksUp hctx' hfound' hexcerpt' (by decide +kernel))
  exact habsolute.trans (congrArg (Except.mapError Failure.kind) hquote)

end Quotation
