import Quotation.Proofs.Resolution.Nesting

/-!
# Citations without end

Where citations never come to an end, as in files that cite each other in a circle, no bound on the depth is large enough: each level that quotes are followed down to leaves endless citations below it, whatever stands before them in the lines (`exists_error_of_endless`). Resolving ends all the same, with the bound unless a marker on the way fails by itself.
-/

namespace Quotation

open Outcome

/-- The surroundings of what the first `count` of the citations quote, one within the other. -/
def Context.along (ctx : Context) (links : Nat → Link) : Nat → Context
  | 0 => ctx
  | count + 1 => (ctx.along links count).nested (links count).target

/-- Citations without end: the first stands in the lines, and each later one in what the one before quotes. -/
structure Endless (t : Tree) (config : Config) (ctx : Context) (lines : List Text) (links : Nat → Link) : Prop where
  first : (links 0).StandsIn t ctx lines
  next : ∀ count, ∃ quote, t.excerpt config.encoding (links count).citation (links count).target = .ok quote ∧
    (links (count + 1)).StandsIn t (ctx.along links (count + 1)) (Text.splitOn '\n' quote)

variable {t : Tree} {config : Config} {descend : Descent} {ctx : Context} {lines : List Text} {links : Nat → Link} {base file : Path}

theorem Context.along_nested (ctx : Context) (links : Nat → Link) (count : Nat) :
    (ctx.nested (links 0).target).along (fun index => links (index + 1)) count = ctx.along links (count + 1) := by
  induction count with
  | zero => rfl
  | succ count ih =>
    rw [along, ih]
    rfl

theorem Endless.tail (h : Endless t config ctx lines links) :
    ∃ quote, t.excerpt config.encoding (links 0).citation (links 0).target = .ok quote ∧
      Endless t config (ctx.nested (links 0).target) (Text.splitOn '\n' quote) fun index => links (index + 1) := by
  obtain ⟨quote, hquote, hfirst⟩ := h.next 0
  refine ⟨quote, hquote, hfirst, fun count => ?_⟩
  rw [Context.along_nested]
  exact h.next (count + 1)

theorem exists_error_of_descend (hrecursive : ctx.recursive = true) (h : Endless t config ctx lines links)
    (hdescend : ∀ marker quote,
      (Endless t config (ctx.nested (links 0).target) (Text.splitOn '\n' quote) fun index => links (index + 1)) →
      ∃ failure, (descend marker (ctx.nested (links 0).target) quote).outcome = .error failure) :
    ∃ failure, (lines.mapM (resolveLine t config descend ctx)).outcome = .error failure := by
  obtain ⟨quote, hquote, htail⟩ := h.tail
  have hmarkers : Segment.hasMarkers quote = true :=
    (Segment.hasMarkers_iff (Tree.eq_lineFeed_of_excerpt hquote)).2 (List.ne_nil_of_mem htail.first.mem)
  obtain ⟨failure, hfailure⟩ := hdescend (Segment.marker (links 0).body).toText quote htail
  exact exists_error_of_mem h.first.mem
    (outcome_resolveSegment_of_error h.first.ofBody hquote hrecursive hmarkers hfailure)

/-- Lines with endless citations fail, whatever the budget. -/
theorem exists_error_of_endless (hrecursive : ctx.recursive = true) (h : Endless t config ctx lines links) (budget : Nat) :
    ∃ failure, (lines.mapM (resolveLine t config (resolveQuote t config budget) ctx)).outcome = .error failure := by
  -- The induction is on the budget: each level takes the first citation off and uses up one step.
  induction budget generalizing ctx lines links with
  | zero => exact exists_error_of_descend hrecursive h fun _ _ _ => ⟨_, rfl⟩
  | succ budget ih =>
    refine exists_error_of_descend hrecursive h fun marker quote htail => ?_
    have hnested : (ctx.nested (links 0).target).recursive = true := hrecursive
    obtain ⟨failure, hfailure⟩ := ih hnested htail
    refine ⟨failure, ?_⟩
    rw [← failure?_eq_some_iff, failure?_resolveQuote_succ, failure?_eq_some_iff]
    exact hfailure

/-- A file whose citations never come to an end is not resolved: unless a marker on the way fails by itself, it fails for being nested too deep. -/
theorem resolveFile_of_endless (hrecursive : config.recursive = true)
    (hlines : t.citedLines config.encoding (base.within file) = .ok lines)
    (h : Endless t config { baseDir := base, citingFile := base.within file, recursive := config.recursive } lines links) :
    ∃ failure, (resolveFile t config base file).outcome = .error failure ∧
      ((∃ ctx body own, MeetsIn t config base (base.within file) ctx body ∧ ownFailure? t config ctx body = some own ∧
          failure = own.inFile (base.within file)) ∨
        ∃ marker, failure = .citation ⟨.tooDeep marker config.maxDepth, some (base.within file)⟩) := by
  obtain ⟨bare, hbare⟩ := exists_error_of_endless hrecursive h config.maxDepth.toNat
  refine ⟨bare.inFile (base.within file), (resolveFile_eq_error_iff hlines).2 ⟨bare, hbare, rfl⟩, ?_⟩
  obtain ⟨inner, body, hmet, -, hown | ⟨links, last, -, -, -, -, -, rfl⟩⟩ := exists_cause_of_error hbare
  · exact Or.inl ⟨inner, body, bare, ⟨lines, hlines, hmet⟩, hown, rfl⟩
  · exact Or.inr ⟨_, rfl⟩

def selfCitingTree : Tree := ⟨[], .file "a".toList (Charset.Utf8.encode "[a]\n".toList) .empty⟩

def selfCitation : Link := ⟨"a".toList, ⟨"a".toList, .whole⟩, Path.ofText "a".toList⟩

theorem selfCitation_standsIn {ctx : Context} (hbase : ctx.baseDir = Path.here) (hciting : ctx.citingFile = selfCitation.target) :
    selfCitation.StandsIn selfCitingTree ctx ["[a]".toList] := by
  refine ⟨by decide +kernel, by decide +kernel, ?_⟩
  have hlocate : Context.locate selfCitingTree { baseDir := Path.here, citingFile := selfCitation.target }
      selfCitation.citation.ref = .ok (some selfCitation.target) := by decide +kernel
  obtain ⟨base, citing, depth, recursive⟩ := ctx
  obtain rfl : base = Path.here := hbase
  obtain rfl : citing = selfCitation.target := hciting
  exact hlocate

theorem endless_selfCitingTree :
    Endless selfCitingTree { recursive := true, maxDepth := 2 }
      { baseDir := Path.here, citingFile := Path.ofText "a".toList, recursive := true } ["[a]".toList] fun _ => selfCitation := by
  have hquote : selfCitingTree.excerpt (some "utf-8".toList) selfCitation.citation selfCitation.target = .ok "[a]".toList := by
    decide +kernel
  have hbase : selfCitation.target.parent = Path.here := by decide +kernel
  exact ⟨selfCitation_standsIn rfl rfl, fun count => ⟨_, hquote, selfCitation_standsIn hbase rfl⟩⟩

theorem resolveFile_selfCitingTree :
    ∃ failure, (resolveFile selfCitingTree { recursive := true, maxDepth := 2 } Path.here (Path.ofText "a".toList)).outcome =
        .error failure ∧
      ((∃ ctx body own, MeetsIn selfCitingTree { recursive := true, maxDepth := 2 } Path.here (Path.ofText "a".toList) ctx body ∧
          ownFailure? selfCitingTree { recursive := true, maxDepth := 2 } ctx body = some own ∧
          failure = own.inFile (Path.ofText "a".toList)) ∨
        ∃ marker, failure = .citation ⟨.tooDeep marker 2, some (Path.ofText "a".toList)⟩) := by
  have hlines : selfCitingTree.citedLines (some "utf-8".toList) (Path.ofText "a".toList) = .ok ["[a]".toList] := by decide +kernel
  exact resolveFile_of_endless rfl hlines endless_selfCitingTree

end Quotation
