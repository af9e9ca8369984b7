import Quotation.Proofs.Resolution.Told
import Quotation.Proofs.Tree.Kinds

/-!
# Quotes without recursion

Where quotes are not resolved in turn, a quote takes the place of its marker and is not looked at again. How to go on with quotes makes no difference (`resolveLines_of_not_recursive`), and what is told is about the markers of the file's own lines (`mayMeet_of_not_recursive`), not about one that stands in a quote or comes about where a quote meets the text around it. So the bytes of a file count only if it is the source or a marker of the source leads to it (`resolveFile_of_agreeFor`).
-/

namespace Quotation

open Outcome

/-- Two trees have files and directories at the same paths, and the same bytes in a source and in the files that its markers lead to. -/
structure Tree.AgreeFor (t u : Tree) (config : Config) (base source : Path) : Prop where
  kinds : t.AgreeOnKinds u
  own : ∀ content, t.read source = .ok content → u.read source = .ok content
  cited : ∀ lines link, t.citedLines config.encoding source = .ok lines →
    Link.StandsIn t { baseDir := base, citingFile := source, recursive := config.recursive } lines link →
    ∀ content, t.read link.target = .ok content → u.read link.target = .ok content

variable {t u : Tree} {config : Config} {descend further : Descent} {ctx : Context} {lines : List Text} {body : Text}
  {base file source : Path}

/-! ### What is met -/

theorem followed?_of_not_recursive (hflat : ctx.recursive = false) (body : Text) : followed? t config ctx body = none := by
  rw [followed?, hflat]
  split
  · split <;> simp
  · rfl

theorem mayMeet_of_not_recursive (hflat : ctx.recursive = false) (budget : Nat) :
    mayMeet t config budget ctx lines = (lines.flatMap Segment.markers).map fun body => (ctx, body) := by
  cases budget with
  | zero => rfl
  | succ budget =>
    rw [mayMeet, List.map_eq_flatMap]
    simp only [followed?_of_not_recursive hflat]

theorem resolveLines_of_not_recursive (hflat : ctx.recursive = false) :
    lines.mapM (resolveLine t config further ctx) = lines.mapM (resolveLine t config descend ctx) := by
  refine Traced.compatible_eq.mapM_resolveLine fun body _ _ => ?_
  refine resolveSegment_congr ⟨rfl, fun _ _ _ => rfl⟩ ?_
  intro _ _ _ _ _ hrecursive
  cases hflat.symm.trans hrecursive

/-! ### What counts -/

namespace Tree.AgreeOnKinds

theorem locate_eq (h : t.AgreeOnKinds u) (ctx : Context) (ref : Text) : ctx.locate u ref = ctx.locate t ref := by
  rw [Context.locate, Context.locate, Context.candidates, Context.candidates, Context.citingDir, Context.citingDir, h.isDir_eq,
    funext h.isFile]

theorem ofBody_eq (h : t.AgreeOnKinds u) (ctx : Context) (body : Text) : Reading.ofBody u ctx body = Reading.ofBody t ctx body :=
  Reading.ofBody_congr fun ref _ => h.locate_eq ctx ref

theorem citedLines_eq {p : Path} (h : t.AgreeOnKinds u) (hbytes : ∀ content, t.read p = .ok content → u.read p = .ok content)
    (encoding : Option Text) : u.citedLines encoding p = t.citedLines encoding p := by
  rw [citedLines, citedLines, readLines, readLines, readText, readText, h.read_eq hbytes]

end Tree.AgreeOnKinds

theorem readsSame_of_agreeFor (h : t.AgreeFor u config base source) (hlines : t.citedLines config.encoding source = .ok lines)
    (hbody : body ∈ lines.flatMap Segment.markers) :
    ReadsSame t u config { baseDir := base, citingFile := source, recursive := config.recursive } body := by
  refine ⟨h.kinds.ofBody_eq _ body, fun c target hfound => ?_⟩
  have hcited := h.cited lines ⟨body, c, target⟩ hlines (standsIn_of_ofBody hbody hfound)
  rw [Tree.excerpt, Tree.excerpt, h.kinds.citedLines_eq hcited]

theorem resolveFile_of_agreeFor (hflat : config.recursive = false) (h : t.AgreeFor u config base (base.within file)) :
    resolveFile u config base file = resolveFile t config base file := by
  refine resolveFile_congr (h.kinds.citedLines_eq h.own _) ?_
  rintro ctx body ⟨lines, hlines, hmet⟩
  obtain ⟨rfl, hbody⟩ := hmet.of_not_recursive hflat
  exact readsSame_of_agreeFor h hlines hbody

/-- Without recursion no quote is gone on with, and what resolving a file tells is about the markers of its own lines and nothing else. The file is resolved to the same, or fails in the same way, in every tree with files and directories at the same paths and the same bytes in the file itself and in the files that its own markers lead to. -/
theorem quotes_are_inert (hflat : config.recursive = false) :
    (∀ lines, t.citedLines config.encoding (base.within file) = .ok lines →
      (∀ descend, lines.mapM (resolveLine t config descend
          { baseDir := base, citingFile := base.within file, recursive := config.recursive }) =
        lines.mapM (resolveLine t config (resolveNested t config)
          { baseDir := base, citingFile := base.within file, recursive := config.recursive })) ∧
      (resolveFile t config base file).Tells t ((lines.flatMap Segment.markers).map fun body =>
        ({ baseDir := base, citingFile := base.within file, recursive := config.recursive }, body))) ∧
      ∀ u, t.AgreeFor u config base (base.within file) → resolveFile u config base file = resolveFile t config base file := by
  refine ⟨fun lines hlines => ⟨fun _ => resolveLines_of_not_recursive hflat, ?_⟩, fun _ h => resolveFile_of_agreeFor hflat h⟩
  have htells := tells_resolveFile hlines (Nat.le_refl _)
  rwa [mayMeet_of_not_recursive hflat] at htells

/-- The quote of `e` has a bracket that is closed only behind it, and the quote of `q` is a marker: both seem to cite `s`. -/
def seamTree : Tree :=
  ⟨[], .file "d".toList (Charset.Utf8.encode "[e]s] [q]\n".toList) (.file "e".toList (Charset.Utf8.encode "a [\n".toList)
    (.file "q".toList (Charset.Utf8.encode "[s]\n".toList) (.file "s".toList (Charset.Utf8.encode "1\n".toList) .empty)))⟩

def otherSeamTree : Tree := seamTree.insert ["s".toList] (.file (Charset.Utf8.encode "2\n".toList))

theorem agreeFor_otherSeamTree : seamTree.AgreeFor otherSeamTree {} Path.here (Path.ofText "d".toList) where
  kinds := by
    have hfile : seamTree.get? ["s".toList] = some (.file (Charset.Utf8.encode "1\n".toList)) := rfl
    exact (Tree.sameKinds_insert_file hfile _).agreeOnKinds
  own := by
    have hsame : otherSeamTree.read (Path.ofText "d".toList) = seamTree.read (Path.ofText "d".toList) := by decide +kernel
    intro content hcontent
    rw [hsame, hcontent]
  cited := by
    intro lines link hlines hlink content hcontent
    have hsource : seamTree.citedLines (some "utf-8".toList) (Path.ofText "d".toList) = .ok ["[e]s] [q]".toList] := by decide +kernel
    obtain rfl := Except.ok.inj (hsource.symm.trans hlines)
    have hbodies : ["[e]s] [q]".toList].flatMap Segment.markers = ["e".toList, "q".toList] := by decide +kernel
    have hall : ∀ name ∈ ["e".toList, "q".toList], Reading.ofBody seamTree { baseDir := Path.here, citingFile := Path.ofText "d".toList }
        name = .ok (.found ⟨name, .whole⟩ (Path.ofText name)) ∧
        otherSeamTree.read (Path.ofText name) = seamTree.read (Path.ofText name) := by decide +kernel
    obtain ⟨hfound, hsame⟩ := hall link.body (hbodies ▸ hlink.mem)
    have htarget : Path.ofText link.body = link.target := (Reading.found.inj (Except.ok.inj (hfound.symm.trans hlink.ofBody))).2
    rw [← htarget] at hcontent ⊢
    rw [hsame, hcontent]

theorem quotes_are_inert_in_seamTree :
    (resolveFile seamTree {} Path.here (Path.ofText "d".toList)).outcome =
        .ok ⟨Path.ofText "d".toList, ["a [s] [s]".toList], true, 2, []⟩ ∧
      (resolveFile seamTree {} Path.here (Path.ofText "d".toList)).Tells seamTree
        [({ baseDir := Path.here, citingFile := Path.ofText "d".toList }, "e".toList),
          ({ baseDir := Path.here, citingFile := Path.ofText "d".toList }, "q".toList)] ∧
      resolveFile otherSeamTree {} Path.here (Path.ofText "d".toList) = resolveFile seamTree {} Path.here (Path.ofText "d".toList) := by
  have hsource : seamTree.citedLines (some "utf-8".toList) (Path.ofText "d".toList) = .ok ["[e]s] [q]".toList] := by decide +kernel
  have hbodies : ["[e]s] [q]".toList].flatMap Segment.markers = ["e".toList, "q".toList] := by decide +kernel
  have hflat : ({} : Config).recursive = false := rfl
  obtain ⟨hown, hsame⟩ := @quotes_are_inert seamTree {} Path.here (Path.ofText "d".toList) hflat
  have htells := (hown _ hsource).2
  rw [hbodies] at htells
  exact ⟨by decide +kernel, htells, hsame _ agreeFor_otherSeamTree⟩

end Quotation
