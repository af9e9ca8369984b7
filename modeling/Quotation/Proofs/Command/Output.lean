import Quotation.Proofs.Command.Collected
import Quotation.Proofs.Command.Modes

/-!
# What a command writes

However a command ends, all that it writes are the outputs of the files that it was asked to resolve, each under the path in the output directory that the file has in the base directory, and the directories that these need (`run_mirrors`). Files outside the output directory stay what they are.
-/

namespace Quotation

open Outcome

variable {t after : Tree} {config : Config} {base out : Path} {files : List Path}

/-- Nothing but outputs of the files has been written, each by its own path in `out`. -/
structure MirrorsOnly (t : Tree) (out : Path) (files : List Path) (after : Tree) : Prop where
  file : ∀ place content, after.get? place = some (.file content) → t.get? place ≠ some (.file content) →
    ∃ p ∈ files, after.reach (out.within p) = .ok place ∧ place = out.normalize t.cwd ++ p.parts
  kept : ∀ place content, t.get? place = some (.file content) → ∃ content, after.get? place = some (.file content)
  keptDirectory : ∀ place, t.get? place = some .directory → after.get? place = some .directory
  /-- A new directory is where a path above an output leads, and above the output unless double dots follow. -/
  directory : ∀ place, after.get? place = some .directory → t.get? place = some .directory ∨ t.get? place = none ∧
    ∃ p ∈ files, ∃ count < (out.within p).parts.length, after.reach ((out.within p).upTo count) = .ok place ∧
      (Path.up ∉ (out.within p).parts.drop count → place <+: out.normalize t.cwd ++ p.parts)

theorem mirrorsOnly_of_differsBy (h : Tree.DiffersBy (outputs config base t files) t after) (hdown : ∀ p ∈ files, p.GoesDown) :
    MirrorsOnly t (config.outputDir.getD base) files after := by
  have honly := hasOnlyOutput_of_differsBy h
  have hplace : ∀ p ∈ files, ((config.outputDir.getD base).within p).normalize t.cwd =
      (config.outputDir.getD base).normalize t.cwd ++ p.parts := fun p hp => (hdown p hp).normalize_within t.cwd _
  refine ⟨fun place content hafter hbefore => ?_, honly.kept, honly.keptDirectory, fun place hafter => ?_⟩
  · obtain ⟨job, hdone, hreach, -⟩ := honly.file place content hafter hbefore
    obtain ⟨hmem, hdest⟩ := hdone.dest_eq hdown
    rw [hdest] at hreach
    refine ⟨job.file, hmem, hreach, ?_⟩
    rw [← hplace _ hmem, ← h.cwd]
    exact (Tree.normalize_of_reach hreach).symm
  · refine (honly.directory place hafter).imp_right fun hnew => ⟨hnew.1, ?_⟩
    obtain ⟨-, job, count, hdone, hcount, hreach, hbelow⟩ := hnew
    obtain ⟨hmem, hdest⟩ := hdone.dest_eq hdown
    rw [hdest] at hcount hreach hbelow
    rw [hplace _ hmem] at hbelow
    exact ⟨job.file, hmem, count, hcount, hreach, hbelow⟩

theorem MirrorsOnly.get?_of_not_isPrefix (h : MirrorsOnly t out files after) {place : Place} {content : Bytes}
    (houtside : ¬ out.normalize t.cwd <+: place) (hget : t.get? place = some (.file content)) :
    after.get? place = some (.file content) := by
  obtain ⟨other, hother⟩ := h.kept place content hget
  by_contra hdiffers
  obtain ⟨p, -, -, hplace⟩ := h.file place other hother fun hsame => hdiffers (hother.trans (hsame.symm.trans hget))
  exact houtside (hplace ▸ List.prefix_append _ p.parts)

namespace Command

variable {options : Options} {arguments : List Text}

/-- Where output goes: to the output directory if one is given that is not empty, and to the base directory otherwise. -/
def outputOf (options : Options) (base : Path) : Path :=
  match options.outputDir with
  | some (c :: cs) => Path.ofText (c :: cs)
  | _ => base

theorem outputDir_of_configOf (h : configOf options = .ok config) :
    config.outputDir = options.outputDir.bind fun dir => if dir.isEmpty then none else some (Path.ofText dir) := by
  obtain ⟨maxDepth, -, h⟩ := bind_eq_ok_iff.1 h
  obtain ⟨indent, -, h⟩ := bind_eq_ok_iff.1 h
  obtain rfl := Except.ok.inj h
  rfl

theorem getD_outputDir (h : configOf options = .ok config) (base : Path) : config.outputDir.getD base = outputOf options base := by
  rw [outputDir_of_configOf h, outputOf]
  match options.outputDir with
  | none => rfl
  | some [] => rfl
  | some (c :: cs) => rfl

theorem Resolves.mirrorsOnly (h : Resolves t arguments options config base files) (hcwd : t.HasCwd) (hnames : t.PlainNames) :
    (∀ p ∈ files, IsInput t base p) ∧ MirrorsOnly t (outputOf options base) files (run t arguments).tree := by
  have hinputs : ∀ p ∈ files, IsInput t (searchOf options config base).base p :=
    fun p hp => isInput_of_mem_collect hnames h.isDir h.collected hp
  refine ⟨hinputs, ?_⟩
  rw [h.run_eq, tree_runResolve, ← getD_outputDir h.configured]
  exact mirrorsOnly_of_differsBy (differsBy_resolveFiles (hcwd.hasStart _)) fun p hp => (hinputs p hp).goesDown

/-- A command that is not asked to resolve files leaves the tree alone, and one that is writes nothing but outputs of files that it has collected. -/
theorem run_mirrors (hcwd : t.HasCwd) (hnames : t.PlainNames) (arguments : List Text) :
    (∀ stop, parse arguments = .error stop → (run t arguments).tree = t) ∧
      (∀ options, parse arguments = .ok options → options.check = true → (run t arguments).tree = t) ∧
      ((run t arguments).tree = t ∨
        ∃ options config base files, Resolves t arguments options config base files ∧ (∀ p ∈ files, IsInput t base p) ∧
          MirrorsOnly t (outputOf options base) files (run t arguments).tree) ∧
      ∀ options c cs, parse arguments = .ok options → options.outputDir = some (c :: cs) → ∀ place content,
        ¬ (Path.ofText (c :: cs)).normalize t.cwd <+: place → t.get? place = some (.file content) →
        (run t arguments).tree.get? place = some (.file content) := by
  have hcases : (run t arguments).tree = t ∨
      ∃ options config base files, Resolves t arguments options config base files ∧ (∀ p ∈ files, IsInput t base p) ∧
        MirrorsOnly t (outputOf options base) files (run t arguments).tree := by
    refine (run_cases t arguments).imp_right ?_
    rintro ⟨options, config, base, files, hresolves, -⟩
    exact ⟨options, config, base, files, hresolves, hresolves.mirrorsOnly hcwd hnames⟩
  refine ⟨fun stop hstop => ?_, fun options hparsed hcheck => ?_, hcases, fun options c cs hparsed hout place content houtside hget => ?_⟩
  · obtain htree | ⟨options, config, base, files, hresolves, -⟩ := hcases
    · exact htree
    · cases hstop.symm.trans hresolves.parsed
  · obtain htree | ⟨others, config, base, files, hresolves, -⟩ := hcases
    · exact htree
    · obtain rfl := Except.ok.inj (hparsed.symm.trans hresolves.parsed)
      cases hcheck.symm.trans hresolves.unchecked
  · obtain htree | ⟨others, config, base, files, hresolves, -, hmirrors⟩ := hcases
    · rw [htree, hget]
    · obtain rfl := Except.ok.inj (hparsed.symm.trans hresolves.parsed)
      rw [outputOf, hout] at hmirrors
      exact hmirrors.get?_of_not_isPrefix houtside hget

def plainTree : Tree := ⟨[], .file "d".toList (Charset.Utf8.encode "x\n".toList) .empty⟩

def besideArguments : List Text := ["-o".toList, "o/z/..".toList, "d".toList]

theorem resolves_besideArguments :
    Resolves plainTree besideArguments { paths := ["d".toList], outputDir := some "o/z/..".toList }
      { outputDir := some (Path.ofText "o/z/..".toList) } Path.here [Path.ofText "d".toList] :=
  ⟨by decide +kernel, by decide +kernel, ⟨['.'], by decide +kernel, by decide +kernel⟩, by decide +kernel, .inl rfl, by decide +kernel,
    by decide, rfl⟩

theorem run_mirrors_in_plainTree :
    plainTree.HasCwd ∧ plainTree.PlainNames ∧
      ∃ options config base files, Resolves plainTree besideArguments options config base files ∧
        MirrorsOnly plainTree (outputOf options base) files (run plainTree besideArguments).tree := by
  have hcwd : plainTree.HasCwd := rfl
  have hnames : plainTree.PlainNames := by decide +kernel
  obtain ⟨-, -, hcases, -⟩ := run_mirrors hcwd hnames besideArguments
  have hchanged : (run plainTree besideArguments).tree.get? ["o".toList] ≠ plainTree.get? ["o".toList] := by decide +kernel
  obtain htree | ⟨options, config, base, files, hresolves, -, hmirrors⟩ := hcases
  · exact absurd (congrArg (Tree.get? · ["o".toList]) htree) hchanged
  · exact ⟨hcwd, hnames, options, config, base, files, hresolves, hmirrors⟩

/-- The directory `o/z` is made, because the output directory is written as the one above it, but `o/d` is not in it. -/
theorem exists_directory_beside_output :
    ∃ files place, Resolves plainTree besideArguments { paths := ["d".toList], outputDir := some "o/z/..".toList }
        { outputDir := some (Path.ofText "o/z/..".toList) } Path.here files ∧
      plainTree.get? place = none ∧ (run plainTree besideArguments).tree.get? place = some .directory ∧
      ∀ p ∈ files, ¬ place <+: (Path.ofText "o/z/..".toList).normalize plainTree.cwd ++ p.parts := by
  refine ⟨[Path.ofText "d".toList], ["o".toList, "z".toList], resolves_besideArguments, ?_, ?_, ?_⟩
  · decide +kernel
  · decide +kernel
  · decide +kernel

end Command

end Quotation
