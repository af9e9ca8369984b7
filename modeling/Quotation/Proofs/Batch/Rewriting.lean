import Quotation.Proofs.Batch.InPlace
import Quotation.Proofs.Tree.Rewriting

/-!
# Rewriting what has been resolved

A file that has been resolved can be encoded again, since all its characters come from what was read or are laid out around it (`exists_encoded_of_resolveFile`). So when a run puts the file back in its place, nothing keeps it from doing so but the limits of the system, which the temporary file beside it comes up to sooner than the file itself (`rewriting_needs_room`).
-/

namespace Quotation

open Outcome

variable {t : Tree} {config : Config} {base file : Path} {resolved : Resolved}

theorem exists_encoded_of_resolveFile (hresolve : (resolveFile t config base file).outcome = .ok resolved) :
    ∃ content, Tree.encoded (Tree.textOfLines resolved.lines) config.encoding = .ok content := by
  obtain ⟨before, hbefore⟩ := exists_citedLines_of_resolveFile hresolve
  obtain ⟨text, htext, -⟩ := Tree.readLines_eq_ok_iff.1 (Tree.citedLines_eq_ok_iff.1 hbefore)
  obtain ⟨charset, -, hnamed, -, -⟩ := Tree.readText_eq_ok_iff.1 htext
  obtain ⟨-, -, -, -, -, hsafe⟩ := exists_of_resolveFile (supplies_safe hnamed t) hresolve
  have hhas : ∀ c ∈ Tree.textOfLines resolved.lines, charset.has c = true :=
    Tree.forall_mem_textOfLines (charset.has_of_lt (by decide)) fun line hline c hc => (hsafe line hline c hc).1.1
  obtain ⟨content, hcontent⟩ := Charset.exists_encode_of_has hhas
  obtain ⟨name, hname, hchoose⟩ := hnamed
  refine ⟨content, ?_⟩
  simp only [Tree.encoded, bind_eq_ok_iff, mapError_eq_ok_iff]
  exact ⟨name, hname, charset, hchoose, hcontent⟩

theorem destination_in_place (hout : config.outputDir = none) (hhere : file.anchor = .here)
    (hresolve : (resolveFile t config base file).outcome = .ok resolved) :
    destination base resolved.source (config.outputDir.getD base) = resolved.source := by
  rw [hout, Option.getD_none, source_of_resolveFile hresolve]
  exact destination_self (Path.startsWith_of_here base hhere)

theorem place_of_unchanged (hchanged : resolved.changed = false) (hresolve : (resolveFile t config base file).outcome = .ok resolved) :
    (place t config resolved.source resolved).outcome = .ok () := by
  obtain ⟨content, hread⟩ := read_source_of_resolveFile hresolve
  obtain ⟨reached, hreach, -⟩ := Tree.readAt_eq_ok_iff.1 hread
  rw [place, if_neg (by simp [hchanged]), Tree.resolve_of_reach hreach]
  dsimp only
  rw [if_pos rfl]

/-- A file that could be resolved is put back in its place if it has not changed or if there is room for a temporary file beside it, and else the run ends and leaves everything as it was. -/
theorem rewriting_needs_room (hcwd : t.HasCwd) (habsolute : t.reach (Path.ofPlace t.cwd) = .ok t.cwd)
    (hout : config.outputDir = none) (hhere : file.anchor = .here)
    (hresolve : (resolveFile t config base file).outcome = .ok resolved) :
    (resolved.changed = false → (resolveFiles config base t [file]).outcome = .ok ⟨[.placed ⟨resolved, base.within file⟩]⟩ ∧
        (resolveFiles config base t [file]).tree = t) ∧
      (resolved.changed = true → t.RoomBeside (base.within file) →
        (resolveFiles config base t [file]).outcome = .ok ⟨[.placed ⟨resolved, base.within file⟩]⟩ ∧
        ∃ content, IsOutput config resolved content ∧ (resolveFiles config base t [file]).tree.cwd = t.cwd ∧
          ∀ place, (resolveFiles config base t [file]).tree.get? place =
            if place = (base.within file).normalize t.cwd then some (.file content) else t.get? place) ∧
      (resolved.changed = true → ¬ t.RoomBeside (base.within file) →
        (resolveFiles config base t [file]).outcome = .error (.fault (.os .nameTooLong)) ∧
        (resolveFiles config base t [file]).tree = t) := by
  have hdest := destination_in_place hout hhere hresolve
  obtain ⟨old, hread⟩ := read_source_of_resolveFile hresolve
  obtain ⟨content, hencoded⟩ := exists_encoded_of_resolveFile hresolve
  obtain ⟨hroom, hnoRoom⟩ := Tree.writeLines_over_file hcwd habsolute hread hencoded
  rw [← source_of_resolveFile hresolve]
  have hrun : ∀ placed, place t config resolved.source resolved = placed → placed.outcome = .ok () →
      (resolveFiles config base t [file]).outcome = .ok ⟨[.placed ⟨resolved, resolved.source⟩]⟩ ∧
        (resolveFiles config base t [file]).tree = placed.tree := by
    rintro placed rfl hplaced
    obtain ⟨houtcome, htree⟩ := runFile_of_place hresolve hdest.symm hplaced
    rw [resolveFiles_cons_of_ok houtcome]
    exact ⟨rfl, htree⟩
  refine ⟨fun hchanged => ?_, fun hchanged hfits => ?_, fun hchanged hnone => ?_⟩
  · obtain ⟨houtcome, htree⟩ := hrun _ rfl (place_of_unchanged hchanged hresolve)
    exact ⟨houtcome, htree.trans (tree_place_of_unchanged hchanged)⟩
  · have hwrite : t.writeLines resolved.source resolved.lines config.encoding =
        ((t.writeLines resolved.source resolved.lines config.encoding).1, .ok ()) := Prod.ext rfl (hroom hfits)
    have hplace : place t config resolved.source resolved =
        ⟨(t.writeLines resolved.source resolved.lines config.encoding).1, [], .ok ()⟩ := by
      rw [place, if_pos hchanged, hwrite]
      rfl
    obtain ⟨houtcome, htree⟩ := hrun _ hplace rfl
    obtain ⟨bytes, hbytes, hafter, hget⟩ := Tree.get?_of_writeLines (Tree.read_eq_ok_iff.1 hread) hwrite
    rw [htree]
    exact ⟨houtcome, bytes, hbytes, hafter, hget⟩
  · have hplace : place t config resolved.source resolved = ⟨t, [], .error (.fault (.os .nameTooLong))⟩ := by
      rw [place, if_pos hchanged, hnoRoom hnone]
      rfl
    obtain ⟨houtcome, htree⟩ := runFile_of_place_error hresolve hdest.symm (congrArg Batch.outcome hplace)
    rw [resolveFiles_cons_of_error houtcome]
    exact ⟨rfl, htree.trans (congrArg Batch.tree hplace)⟩

def namedTree (name : Text) : Tree :=
  ⟨[], .file name (Charset.Utf8.encode "[e]\n".toList) (.file "e".toList (Charset.Utf8.encode "y\n".toList) .empty)⟩

/-- A name of 245 bytes leaves just enough room. -/
theorem rewriting_needs_room_in_namedTree :
    let file : Path := ⟨.here, [List.replicate 245 'd']⟩
    let resolved : Resolved := ⟨file, ["y".toList], true, 1, []⟩
    (resolveFile (namedTree (List.replicate 245 'd')) {} Path.here file).outcome = .ok resolved ∧
      (namedTree (List.replicate 245 'd')).RoomBeside file ∧
      (resolveFiles {} Path.here (namedTree (List.replicate 245 'd')) [file]).outcome = .ok ⟨[.placed ⟨resolved, file⟩]⟩ := by
  intro file resolved
  have hresolve : (resolveFile (namedTree (List.replicate 245 'd')) {} Path.here file).outcome = .ok resolved := by decide +kernel
  have hroom : (namedTree (List.replicate 245 'd')).RoomBeside file := by decide +kernel
  have hcwd : (namedTree (List.replicate 245 'd')).HasCwd := by rfl
  exact ⟨hresolve, hroom, ((rewriting_needs_room hcwd rfl rfl rfl hresolve).2.1 rfl hroom).1⟩

/-- One byte more is a legal name, and the file can be read and resolved, but not rewritten. -/
theorem exists_unwritable_name :
    let file : Path := ⟨.here, [List.replicate 246 'd']⟩
    file.WithinLimits ∧
      (resolveFile (namedTree (List.replicate 246 'd')) {} Path.here file).outcome = .ok ⟨file, ["y".toList], true, 1, []⟩ ∧
      (resolveFiles {} Path.here (namedTree (List.replicate 246 'd')) [file]).outcome = .error (.fault (.os .nameTooLong)) := by
  decide +kernel

end Quotation
