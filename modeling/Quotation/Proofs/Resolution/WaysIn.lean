import Quotation.Proofs.Citation.RoundTrip
import Quotation.Proofs.Segment.Segmentation
import Quotation.Proofs.Tree.Reading
import Quotation.Resolution.Document

/-!
# The three ways in

A file, a text and a single citation are resolved by functions of their own, each of which makes out the surroundings and puts the pieces together in its way. They agree (`ways_in_agree`): a file is resolved to what its text is resolved to, and a citation to what its marker is resolved to.
-/

namespace Quotation

open Outcome

/-- A name that stands for a file in a directory, and neither for a directory nor for a path of several names. -/
def Path.IsName (name : Text) : Prop := name ≠ [] ∧ '/' ∉ name ∧ name ≠ stay ∧ name ≠ up

instance (name : Text) : Decidable (Path.IsName name) := inferInstanceAs (Decidable (_ ∧ _ ∧ _ ∧ _))

theorem Path.ofText_of_isName {name : Text} (h : Path.IsName name) : Path.ofText name = ⟨.here, [name]⟩ := by
  obtain ⟨hne, hslash, hstay, -⟩ := h
  have hanchor : anchorOf name = .here := by
    have hnone : name.takeWhile (· = '/') = [] := by
      cases name with
      | nil => rfl
      | cons c cs =>
        simp only [List.mem_cons, not_or] at hslash
        simp [Ne.symm hslash.1]
    rw [anchorOf, hnone]
    rfl
  rw [ofText, hanchor, Text.splitOn_of_not_mem hslash]
  simp [hne, hstay]

/-- Neither the reference nor the pattern of a citation has a character that would end or break its marker. -/
def Citation.IsPlain (c : Citation) : Prop := ∀ d ∈ ['[', ']', '\n'], d ∉ c.ref ∧ d ∉ c.pattern?.getD []

instance (c : Citation) : Decidable c.IsPlain := List.decidableBAll _ _

theorem Citation.not_mem_token {c : Citation} {d : Char} (hwell : c.WellFormed) (hd : d.isDigit = false ∧ d ≠ ':' ∧ d ≠ '%')
    (href : d ∉ c.ref) (hpattern : d ∉ c.pattern?.getD []) : d ∉ c.token := by
  obtain ⟨-, -, -, -, hpassage⟩ := hwell
  obtain ⟨ref, passage⟩ := c
  cases passage with
  | whole => exact href
  | line number =>
    have hnumber := not_mem_ofInt hpassage hd.1
    simp [token, href, hd.2.1, hnumber]
  | range first last =>
    have hfirst := not_mem_ofInt hpassage.1 hd.1
    have hlast := not_mem_ofInt hpassage.2 hd.1
    simp [token, href, hd.2.1, hfirst, hlast]
  | pattern wanted =>
    have hwanted : d ∉ wanted := hpattern
    simp [token, href, hd.2.2, hwanted]

theorem Citation.token_ne_nil {c : Citation} (hwell : c.WellFormed) : c.token ≠ [] := by
  obtain ⟨href, -⟩ := hwell
  obtain ⟨ref, passage⟩ := c
  cases passage <;> simp [token, href]

variable {t : Tree} {config : Config} {descend : Descent} {ctx : Context} {dir citing : Path} {name : Text} {lines : List Text}
  {c : Citation}

/-! ### A file and its text -/

theorem resolveLines_join (h : ∀ line ∈ lines, '\n' ∉ line) :
    resolveLines t config descend ctx (Text.join '\n' lines) =
      Text.join '\n' <$> lines.mapM (resolveLine t config descend ctx) := by
  rw [resolveLines]
  cases lines with
  | nil => rfl
  | cons line rest => rw [Text.splitOn_join (by simp) h]

theorem ofCiting_of_citedLines {encoding : Option Text} (recursive : Bool) (h : t.citedLines encoding citing = .ok lines) :
    Context.ofCiting t recursive citing = .ok { baseDir := citing.parent, citingFile := citing, recursive } := by
  obtain ⟨content, hread⟩ := Tree.exists_read_of_citedLines h
  rw [Context.ofCiting, Tree.isDir_of_read hread]
  rfl

/-- A file in a directory is resolved to the text that its own text is resolved to, and fails as that does but for the name of the file. -/
theorem outcome_resolveFile_eq (hname : Path.IsName name)
    (h : t.readLines (dir.within (Path.ofText name)) config.encoding = .ok lines) :
    (resolveFile t config dir (Path.ofText name)).outcome.map Resolved.text =
      (resolveText t config (dir.within (Path.ofText name)) (Text.join '\n' lines)).outcome.mapError
        (Failure.inFile (dir.within (Path.ofText name))) := by
  have hparent : (dir.within (Path.ofText name)).parent = dir := by
    rw [Path.ofText_of_isName hname, Path.within_of_here, Path.parent, List.dropLast_concat]
  have hcited := Tree.citedLines_eq_ok_iff.2 h
  have hctx := ofCiting_of_citedLines config.recursive hcited
  rw [hparent] at hctx
  rw [resolveText, hctx, resolveFile, resolveSource, hcited]
  generalize dir.within (Path.ofText name) = source
  simp only [Traced.outcome_bind, Traced.outcome_lift, Except.mapError, resolveLines_join (Tree.not_mem_of_readLines h), Traced.outcome_map]
  cases (lines.mapM (resolveLine t config (resolveNested t config)
    { baseDir := dir, citingFile := source, recursive := config.recursive })).outcome with
  | error failure => rfl
  | ok resolved => exact congrArg Except.ok (Text.join_flatMap_splitOn resolved)

/-! ### A citation and its marker -/

theorem ofBody_of_parse {body : Text} (h : Citation.parse body = .ok c) : Reading.ofBody t ctx body = Reading.ofCitation t ctx c := by
  rw [Reading.ofBody, h]

theorem resolveLines_marker (hwell : c.WellFormed) (hplain : c.IsPlain) :
    resolveLines t config descend ctx c.marker = resolveSegment t config descend ctx (.marker c.token) := by
  have hother : ∀ d ∈ ['[', ']', '\n'], d.isDigit = false ∧ d ≠ ':' ∧ d ≠ '%' := by simp
  have hmem : ∀ d ∈ ['[', ']', '\n'], d ∉ c.token := fun d hd =>
    Citation.not_mem_token hwell (hother d hd) (hplain d hd).1 (hplain d hd).2
  have hsplit : Segment.split c.marker = [.marker c.token] :=
    Segment.split_enclosed (Citation.token_ne_nil hwell) (Segment.closesAt_of_not_mem (hmem _ (by simp)) (hmem _ (by simp)) [])
  have hline : Text.splitOn '\n' c.marker = [c.marker] := by
    apply Text.splitOn_of_not_mem
    simp [Citation.marker, hmem '\n' (by simp)]
  rw [resolveLines, hline, List.mapM_cons, List.mapM_nil, resolveLine, hsplit, List.mapM_cons, List.mapM_nil]
  simp [Text.join]

/-- A citation that has been read somewhere is resolved as its marker is. -/
theorem getQuote_eq_resolveText {token : Text} (h : Citation.parse token = .ok c) (hplain : c.IsPlain) :
    getQuote t config citing c = resolveText t config citing c.marker := by
  obtain ⟨hwell, hfit⟩ := Citation.wellFormed_of_parse h
  rw [getQuote, resolveText]
  refine Traced.bind_congr fun ctx _ => ?_
  rw [resolveLines_marker hwell hplain, resolveSegment, ofBody_of_parse (Citation.parse_token hwell hfit)]
  rfl

/-- The three ways in agree: on a file and its text but for the name that the file lends to an error, and on a citation and its marker. -/
theorem ways_in_agree (t : Tree) (config : Config) :
    (∀ dir name lines, Path.IsName name → t.readLines (dir.within (Path.ofText name)) config.encoding = .ok lines →
        (resolveFile t config dir (Path.ofText name)).outcome.map Resolved.text =
          (resolveText t config (dir.within (Path.ofText name)) (Text.join '\n' lines)).outcome.mapError
            (Failure.inFile (dir.within (Path.ofText name)))) ∧
      ∀ citing token c, Citation.parse token = .ok c → c.IsPlain →
        getQuote t config citing c = resolveText t config citing c.marker :=
  ⟨fun _ _ _ => outcome_resolveFile_eq, fun _ _ _ => getQuote_eq_resolveText⟩

def letterTree : Tree :=
  ⟨[], .folder "d".toList
    (.file "b".toList (Charset.Utf8.encode "p\nq\n".toList)
      (.file "n".toList (Charset.Utf8.encode "x [b] [gone]\n\n".toList)
        (.file "m".toList (Charset.Utf8.encode "[b:3]\n".toList) .empty))) .empty⟩

theorem ways_in_agree_in_letterTree :
    let dir := Path.ofText "d".toList
    let file := fun (name : String) => resolveFile letterTree {} dir (Path.ofText name.toList)
    (file "n").outcome.map Resolved.text = .ok "x p\nq [gone]\n".toList ∧
      (resolveText letterTree {} (Path.ofText "d/n".toList) "x [b] [gone]\n".toList).outcome.mapError
        (Failure.inFile (Path.ofText "d/n".toList)) = .ok "x p\nq [gone]\n".toList ∧
      (file "m").outcome.map Resolved.text =
        .error (.citation ⟨.lineOutOfRange "b".toList 3 2, some (Path.ofText "d/m".toList)⟩) ∧
      (resolveText letterTree {} (Path.ofText "d/n".toList) "[b:2]".toList).outcome = .ok "q".toList := by
  intro dir file
  obtain ⟨hfiles, hcitations⟩ := ways_in_agree letterTree {}
  have hname : Path.IsName "n".toList ∧ Path.IsName "m".toList := by decide
  have hquoted := hfiles dir "n".toList ["x [b] [gone]".toList, []] hname.1 (by decide +kernel)
  have hfailed := hfiles dir "m".toList ["[b:3]".toList] hname.2 (by decide +kernel)
  have htext : (file "n").outcome.map Resolved.text = .ok "x p\nq [gone]\n".toList := by decide +kernel
  refine ⟨htext, hquoted.symm.trans htext, hfailed.trans (by decide +kernel), ?_⟩
  have hline := hcitations (Path.ofText "d/n".toList) "b:2".toList ⟨"b".toList, .line 2⟩ (by decide) (by decide)
  exact (congrArg Traced.outcome hline).symm.trans (by decide +kernel)

end Quotation
