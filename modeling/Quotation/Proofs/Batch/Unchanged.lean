import Quotation.Proofs.Batch.KeepGoing
import Quotation.Proofs.Resolution.Dangling
import Quotation.Proofs.Resolution.Written
import Quotation.Proofs.Tree.Clearance

/-!
# Files that come out as they went in

A file whose markers lead nowhere is not changed by resolving it. A run leaves such a file alone where its output would take its own place, and copies it byte for byte to any other place. Together with what holds of texts and single files this says that references which lead nowhere never alter a document (`dangling_references_stay`).
-/

namespace Quotation

open Outcome

variable {t : Tree} {config : Config} {base file dest : Path} {lines : List Text} {content : Bytes}

/-! ### One file -/

theorem place_of_same (config : Config) {resolved : Resolved} (hchanged : resolved.changed = false) {target : Place}
    (hsource : t.resolve resolved.source = .ok target) (hdest : t.resolve dest = .ok target) :
    (place t config dest resolved).outcome = .ok () ∧ (place t config dest resolved).tree = t := by
  rw [place, if_neg (by simp [hchanged]), hdest, hsource]
  dsimp only
  rw [if_pos rfl]
  exact ⟨rfl, rfl⟩

theorem place_of_accepts (config : Config) {resolved : Resolved} (hchanged : resolved.changed = false) (hread : t.read resolved.source = .ok content)
    (helsewhere : t.resolve dest ≠ t.resolve resolved.source) (haccepts : t.Accepts dest) :
    (place t config dest resolved).outcome = .ok () ∧ (place t config dest resolved).tree.read dest = .ok content ∧
      (place t config dest resolved).tree.read resolved.source = .ok content := by
  obtain ⟨origin, horigin, -⟩ := Tree.readAt_eq_ok_iff.1 hread
  have hsource := Tree.resolve_of_reach horigin
  have hdest : t.resolve dest = .ok (dest.normalize t.cwd) := by rw [Tree.resolve, haccepts.no_null]; rfl
  have hplaces : dest.normalize t.cwd ≠ origin := fun hsame => helsewhere (by rw [hdest, hsource, hsame])
  obtain ⟨after, hcopy, hcopied, hkept⟩ := haccepts.copyFile hread (by rwa [Tree.normalize_of_reach horigin])
  rw [place, if_neg (by simp [hchanged]), hdest, hsource]
  dsimp only
  rw [if_neg hplaces, hcopy]
  exact ⟨rfl, hcopied, hkept⟩

/-- A run places the file next, as it was and without any citation. -/
def PlacesAsIs (run : Run) (after : Batch Run) (source dest : Path) (lines : List Text) : Prop :=
  ∃ unresolved, after.outcome = .ok ⟨run.results ++ [.placed ⟨⟨source, lines, false, 0, unresolved⟩, dest⟩]⟩

/-- What a run does with a file whose markers lead nowhere: it leaves the file alone or copies it. -/
theorem resolveFiles_of_leadsNowhere {earlier : List Path} {run : Run} (hlenient : config.failOnUnresolved = false)
    (hbefore : (resolveFiles config base t earlier).outcome = .ok run)
    (hnowhere : FileLeadsNowhere (resolveFiles config base t earlier).tree config base file lines)
    (hread : (resolveFiles config base t earlier).tree.read (base.within file) = .ok content)
    (hdest : dest = destination base (base.within file) (config.outputDir.getD base)) :
    ((resolveFiles config base t earlier).tree.resolve dest = (resolveFiles config base t earlier).tree.resolve (base.within file) →
        PlacesAsIs run (resolveFiles config base t (earlier ++ [file])) (base.within file) dest lines ∧
          (resolveFiles config base t (earlier ++ [file])).tree = (resolveFiles config base t earlier).tree) ∧
      ((resolveFiles config base t earlier).tree.resolve dest ≠ (resolveFiles config base t earlier).tree.resolve (base.within file) →
        (resolveFiles config base t earlier).tree.Accepts dest →
        PlacesAsIs run (resolveFiles config base t (earlier ++ [file])) (base.within file) dest lines ∧
          (resolveFiles config base t (earlier ++ [file])).tree.read dest = .ok content ∧
          (resolveFiles config base t (earlier ++ [file])).tree.read (base.within file) = .ok content) := by
  obtain ⟨unresolved, hresolve⟩ := resolveFile_of_leadsNowhere hlenient hnowhere
  have hchanged : (Resolved.mk (base.within file) lines false 0 unresolved).changed = false := rfl
  obtain ⟨origin, horigin, -⟩ := Tree.readAt_eq_ok_iff.1 hread
  refine ⟨fun hsame => ?_, fun helsewhere haccepts => ?_⟩
  · obtain ⟨hplace, htree⟩ := place_of_same config hchanged
      (Tree.resolve_of_reach horigin) (hsame.trans (Tree.resolve_of_reach horigin))
    obtain ⟨hfile, hplaced⟩ := runFile_of_place hresolve hdest hplace
    obtain ⟨houtcome, hafter⟩ := resolveFiles_concat_of_ok hbefore hfile
    exact ⟨⟨unresolved, houtcome⟩, by rw [hafter, hplaced, htree]⟩
  · obtain ⟨hplace, hcopied, hkept⟩ := place_of_accepts config hchanged hread helsewhere haccepts
    obtain ⟨hfile, hplaced⟩ := runFile_of_place hresolve hdest hplace
    obtain ⟨houtcome, hafter⟩ := resolveFiles_concat_of_ok hbefore hfile
    rw [hafter, hplaced]
    exact ⟨⟨unresolved, houtcome⟩, hcopied, hkept⟩

/-- References that lead nowhere never alter a document: a text comes out as it went in, a file has no changes and no citations, and a run leaves the file alone in its own place and copies it byte for byte to another one. -/
theorem dangling_references_stay (t : Tree) (config : Config) (hlenient : config.failOnUnresolved = false) :
    (∀ citing text, citing.WithinLimits → ∃ ctx, Context.ofCiting t config.recursive citing = .ok ctx ∧
        (LeadsNowhere t ctx (Text.splitOn '\n' text) → (resolveText t config citing text).outcome = .ok text)) ∧
      (∀ base file lines, FileLeadsNowhere t config base file lines →
        ∃ unresolved, (resolveFile t config base file).outcome = .ok ⟨base.within file, lines, false, 0, unresolved⟩) ∧
      ∀ base earlier file run lines content, (resolveFiles config base t earlier).outcome = .ok run →
        let before := (resolveFiles config base t earlier).tree
        let after := resolveFiles config base t (earlier ++ [file])
        let source := base.within file
        let dest := destination base source (config.outputDir.getD base)
        FileLeadsNowhere before config base file lines → before.read source = .ok content →
        (before.resolve dest = before.resolve source → PlacesAsIs run after source dest lines ∧ after.tree = before) ∧
          (before.resolve dest ≠ before.resolve source → before.Accepts dest →
            PlacesAsIs run after source dest lines ∧ after.tree.read dest = .ok content ∧ after.tree.read source = .ok content) := by
  refine ⟨fun citing text hciting => ?_, fun base file lines => resolveFile_of_leadsNowhere hlenient, ?_⟩
  · obtain ⟨ctx, hctx⟩ := Context.exists_ofCiting t config.recursive hciting
    exact ⟨ctx, hctx, resolveText_of_leadsNowhere hlenient hctx⟩
  · intro base earlier file run lines content hbefore before after source dest hnowhere hread
    exact resolveFiles_of_leadsNowhere hlenient hbefore hnowhere hread rfl

def asideBytes : Bytes := Charset.Utf8.encode "[b] x [c:0]\r\n\\[d] [ ]\n".toList

def asideTree : Tree := ⟨[], .file "a".toList asideBytes .empty⟩

theorem dangling_references_stay_in_asideTree :
    let file := Path.ofText "a".toList
    let inPlace := resolveFiles {} Path.here asideTree [file]
    let copying := resolveFiles { outputDir := some (Path.ofText "o/p".toList) } Path.here asideTree [file]
    (resolveText asideTree {} file "[b] x\n\n[9:1:2]".toList).outcome = .ok "[b] x\n\n[9:1:2]".toList ∧
      (∃ unresolved, (resolveFile asideTree {} Path.here file).outcome =
        .ok ⟨file, ["[b] x [c:0]".toList, "\\[d] [ ]".toList], false, 0, unresolved⟩) ∧
      inPlace.tree = asideTree ∧ copying.tree.read (Path.ofText "o/p/a".toList) = .ok asideBytes ∧
      copying.tree.read file = .ok asideBytes := by
  intro file inPlace copying
  have hlines : FileLeadsNowhere asideTree {} Path.here file ["[b] x [c:0]".toList, "\\[d] [ ]".toList] :=
    ⟨by decide +kernel, leadsNowhere_of_locate (by decide +kernel)⟩
  have hread : asideTree.read file = .ok asideBytes := by decide +kernel
  obtain ⟨htexts, hfiles, hruns⟩ := dangling_references_stay asideTree {} rfl
  obtain ⟨-, -, hcopies⟩ := dangling_references_stay asideTree { outputDir := some (Path.ofText "o/p".toList) } rfl
  obtain ⟨ctx, hctx, htext⟩ := htexts file "[b] x\n\n[9:1:2]".toList (by decide)
  have hcontext : Context.ofCiting asideTree false file = .ok { baseDir := Path.here, citingFile := file } := by decide +kernel
  obtain rfl := Except.ok.inj (hctx.symm.trans hcontext)
  have haccepts : asideTree.Accepts (Path.ofText "o/p/a".toList) :=
    ⟨rfl, by decide, by decide, by decide +kernel, by decide +kernel, by decide +kernel⟩
  obtain ⟨-, hplaced, hcopied⟩ := (hcopies Path.here [] file ⟨[]⟩ _ asideBytes rfl hlines hread).2 (by decide +kernel) haccepts
  exact ⟨htext (leadsNowhere_of_locate (by decide +kernel)), hfiles Path.here file _ hlines,
    ((hruns Path.here [] file ⟨[]⟩ _ asideBytes rfl hlines hread).1 rfl).2, hplaced, hcopied⟩

end Quotation
