import Quotation.Proofs.Citation.Spelling
import Quotation.Proofs.Resolution.FirstFailure

/-!
# Malformed citations

Brackets that hold no citation are prose, unless they look like a botched citation of an existing file. What is looked up for that is the text before the first percent sign or colon, without the blanks around it (`refOf_eq`). The grammar cuts in another way: at the first percent sign if there is one, and only else at the first colon (`assignedRef`). The two agree except on references with a colon, and such are found with patterns only (`refOf_eq_assignedRef_iff`). By the first of them a malformed citation is raised or left as it stands (`malformed_raised_or_left`).
-/

namespace Quotation

namespace Citation

/-- The reference that the grammar sees in a token: what stands before a pattern, or else before the line numbers. -/
def assignedRef (token : Text) : Text :=
  Text.trim (match Text.cut '%' token with
    | some (ref, _) => ref
    | none => Text.before ':' token)

variable {token : Text} {c : Citation}

/-! ### References -/

/-- Looking for the file of a malformed token cuts it at whichever delimiter comes first. -/
theorem refOf_eq (token : Text) : refOf token = Text.trim (token.takeWhile fun d => d ≠ '%' && d ≠ ':') := by
  rw [refOf, Text.before, Text.before, List.takeWhile_takeWhile]
  congr 2
  funext d
  simp [Bool.and_comm]

theorem assignedRef_append_percent {ref : Text} (hpercent : '%' ∉ ref) (wanted : Text) :
    assignedRef (ref ++ '%' :: wanted) = Text.trim ref := by
  rw [assignedRef, Text.cut_append_cons hpercent]

theorem assignedRef_of_not_mem (hpercent : '%' ∉ token) : assignedRef token = Text.trim (Text.before ':' token) := by
  rw [assignedRef, Text.cut_eq_none_iff.2 hpercent]

theorem assignedRef_of_parse (h : parse token = .ok c) : assignedRef token = c.ref := by
  cases spells_of_parse h with
  | whole _ hpercent hcolon => rw [assignedRef_of_not_mem hpercent, Text.before_of_not_mem hcolon]
  | line _ hpercent hcolon hstart =>
    rw [assignedRef_of_not_mem, Text.before_append_cons hcolon]
    simp [hpercent, hstart.not_mem (d := '%') rfl rfl]
  | range _ hpercent hcolon hstart hlast =>
    rw [assignedRef_of_not_mem, Text.before_append_cons hcolon]
    simp [hpercent, hstart.not_mem (d := '%') rfl rfl, hlast.not_mem (d := '%') rfl rfl]
  | pattern _ hpercent _ _ => exact assignedRef_append_percent hpercent _

/-- A colon before the first percent sign is what the two ways of cutting differ in. -/
theorem refOf_eq_assignedRef_iff (token : Text) : refOf token = assignedRef token ↔ ':' ∉ assignedRef token := by
  constructor
  · intro h
    rw [← h, refOf]
    exact fun hmem => Text.not_mem_before ':' _ (Text.mem_of_mem_trim hmem)
  · intro hcolon
    cases hcut : Text.cut '%' token with
    | none =>
      have hpercent : '%' ∉ token := Text.cut_eq_none_iff.1 hcut
      rw [assignedRef_of_not_mem hpercent, refOf, Text.before_of_not_mem hpercent]
    | some parts =>
      obtain ⟨rfl, hpercent⟩ := Text.cut_eq_some hcut
      rw [assignedRef_append_percent hpercent] at hcolon ⊢
      have hbare : ':' ∉ parts.1 := fun hmem => hcolon ((Text.isBlank_or_mem_trim hmem).resolve_left (by decide))
      rw [refOf, Text.before_append_cons hpercent, Text.before_of_not_mem hbare]

end Citation

variable {t : Tree} {config : Config} {ctx : Context} {body token : Text} {reason : Malformed}

/-! ### Markers -/

theorem Reading.ofBody_of_malformed (hparse : Citation.parse body = .error (.malformed token reason)) :
    ofBody t ctx body = (ctx.locate t (Citation.refOf body)).map fun
      | some _ => .faulty token reason
      | none => .prose := by
  cases hlocate : ctx.locate t (Citation.refOf body) with
  | error fault => simp [ofBody, hparse, hlocate, Except.map]
  | ok found => cases found <;> simp [ofBody, hparse, hlocate, Except.map]

theorem resolveSegment_of_faulty (descend : Descent) (h : Reading.ofBody t ctx body = .ok (.faulty token reason)) :
    resolveSegment t config descend ctx (.marker body) = Traced.fail (.malformed token reason) := by
  rw [resolveSegment, h]
  rfl

theorem resolveSegment_of_prose (descend : Descent) (h : Reading.ofBody t ctx body = .ok .prose) :
    resolveSegment t config descend ctx (.marker body) =
      ⟨[.left (Segment.marker body).toText], .ok (Segment.marker body).toText⟩ := by
  rw [resolveSegment, h]
  rfl

theorem Context.isDir_of_locate_eq_error {ref : Text} {fault : Fault} (h : ctx.locate t ref = .error fault) :
    t.isDir ctx.citingFile = .error fault := by
  cases hdir : t.isDir ctx.citingFile with
  | ok found =>
    obtain ⟨target, htarget⟩ := exists_locate hdir ref
    cases h.symm.trans htarget
  | error other =>
    rw [locate, candidates] at h
    split at h
    · cases h
    · rw [citingDir, hdir] at h
      exact congrArg Except.error (Except.error.inj h)

/-- A malformed citation is raised if the text before the first delimiter names an existing file, and its marker stays if there is no such file. For the grammar's own reference this holds unless there is a colon in it. -/
theorem malformed_raised_or_left (config : Config) (descend : Descent) (hparse : Citation.parse body = .error (.malformed token reason)) :
    token = body ∧
      (∀ target, ctx.locate t (Citation.refOf body) = .ok (some target) →
        resolveSegment t config descend ctx (.marker body) = Traced.fail (.malformed token reason)) ∧
      (ctx.locate t (Citation.refOf body) = .ok none →
        resolveSegment t config descend ctx (.marker body) =
          ⟨[.left (Segment.marker body).toText], .ok (Segment.marker body).toText⟩) ∧
      (∀ fault, ctx.locate t (Citation.refOf body) = .error fault → t.isDir ctx.citingFile = .error fault ∧
        resolveSegment t config descend ctx (.marker body) = Traced.lift (.error (.fault fault))) ∧
      ∀ other, Citation.refOf other = Text.trim (other.takeWhile fun d => d ≠ '%' && d ≠ ':') ∧
        (Citation.refOf other = Citation.assignedRef other ↔ ':' ∉ Citation.assignedRef other) ∧
        ∀ c, Citation.parse other = .ok c → Citation.assignedRef other = c.ref := by
  have hreading : Reading.ofBody t ctx body = _ := Reading.ofBody_of_malformed hparse
  refine ⟨Citation.eq_of_parse_eq_malformed hparse, fun target hlocate => ?_, fun hlocate => ?_, fun fault hlocate => ?_,
    fun other => ⟨Citation.refOf_eq other, Citation.refOf_eq_assignedRef_iff other, fun c => Citation.assignedRef_of_parse⟩⟩
  · rw [hlocate] at hreading
    exact resolveSegment_of_faulty descend hreading
  · rw [hlocate] at hreading
    exact resolveSegment_of_prose descend hreading
  · rw [hlocate] at hreading
    refine ⟨Context.isDir_of_locate_eq_error hlocate, ?_⟩
    rw [resolveSegment, hreading]
    rfl

def colonTree : Tree :=
  ⟨[], .file "a:b".toList (Charset.Utf8.encode "x\n".toList) (.file "d".toList (Charset.Utf8.encode "[a:b%]\n[e:3%]\n".toList)
    (.file "e".toList (Charset.Utf8.encode "y\n".toList) .empty))⟩

def colonContext : Context := { baseDir := Path.here, citingFile := Path.ofText "d".toList }

theorem malformed_raised_in_colonTree :
    Citation.parse "e:3%".toList = .error (.malformed "e:3%".toList .emptyPattern) ∧
      resolveSegment colonTree {} (resolveNested colonTree {}) colonContext (.marker "e:3%".toList) =
        Traced.fail (.malformed "e:3%".toList .emptyPattern) := by
  have hparse : Citation.parse "e:3%".toList = .error (.malformed "e:3%".toList .emptyPattern) := by decide +kernel
  have hlocate : colonContext.locate colonTree (Citation.refOf "e:3%".toList) = .ok (some (Path.ofText "e".toList)) := by
    decide +kernel
  exact ⟨hparse, (malformed_raised_or_left {} _ hparse).2.1 _ hlocate⟩

/-- The botched citation of `a:b` is taken for prose, as there is no file `a`, while a good one reads as a citation of `a:b`. Conversely, `e` is found for a citation of a file `e:3` that is not there. -/
theorem exists_malformed_taken_for_prose :
    (Citation.parse "a:b%".toList = .error (.malformed "a:b%".toList .emptyPattern) ∧
        colonContext.locate colonTree (Citation.assignedRef "a:b%".toList) = .ok (some (Path.ofText "a:b".toList)) ∧
        resolveSegment colonTree {} (resolveNested colonTree {}) colonContext (.marker "a:b%".toList) =
          ⟨[.left "[a:b%]".toList], .ok "[a:b%]".toList⟩) ∧
      (Citation.parse "e:3%".toList = .error (.malformed "e:3%".toList .emptyPattern) ∧
        colonContext.locate colonTree (Citation.assignedRef "e:3%".toList) = .ok none ∧
        resolveSegment colonTree {} (resolveNested colonTree {}) colonContext (.marker "e:3%".toList) =
          Traced.fail (.malformed "e:3%".toList .emptyPattern)) ∧
      Citation.parse "a:b%x".toList = .ok ⟨"a:b".toList, .pattern "x".toList⟩ ∧ Citation.refOf "a:b%x".toList = "a".toList := by
  have hprose : Reading.ofBody colonTree colonContext "a:b%".toList = .ok .prose := by decide +kernel
  have hfaulty : Reading.ofBody colonTree colonContext "e:3%".toList = .ok (.faulty "e:3%".toList .emptyPattern) := by
    decide +kernel
  exact ⟨⟨by decide +kernel, by decide +kernel, resolveSegment_of_prose _ hprose⟩,
    ⟨by decide +kernel, by decide +kernel, resolveSegment_of_faulty _ hfaulty⟩, by decide +kernel, by decide +kernel⟩

end Quotation
