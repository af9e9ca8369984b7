import Quotation.Command.Run
import Quotation.Proofs.Resolution.Outcome
import Quotation.Proofs.Text.Numbers
import Quotation.Proofs.Text.Pieces

/-!
# Brackets in tables

An opening bracket in a cell that is handed over as markup may be taken for the start of a tag. Sources, markers and messages are handed over literally, so their brackets are shown as they are. The paths that files were written to are not: a table has a bracket in its markup exactly if one of these paths has one (`exposed_iff_destination`).
-/

namespace Quotation

def Display.cells : Display → List Cell
  | .table _ _ rows => rows.flatten
  | _ => []

namespace Cell

/-- The cell is handed over as markup and has an opening bracket in it. -/
def IsExposed : Cell → Prop
  | .markup content => '[' ∈ content
  | .literal _ _ => False

instance : (cell : Cell) → Decidable cell.IsExposed
  | .markup content => inferInstanceAs (Decidable ('[' ∈ content))
  | .literal _ _ => inferInstanceAs (Decidable False)

/-- The cell is handed over literally, and the text is what it shows. -/
def Holds (text : Text) (cell : Cell) : Prop := ∃ style, cell = .literal (Report.shown text) style

theorem not_isExposed_literal (content : Text) (style : String) : ¬ (literal content style).IsExposed := id

theorem not_isExposed_ofInt (n : Int) : ¬ (markup (Text.ofInt n)).IsExposed := by
  intro hbracket
  obtain hsign | hdigit := Text.eq_minus_or_isDigit_of_mem_ofInt hbracket
  · exact absurd hsign (by decide)
  · cases hdigit

end Cell

namespace Report

variable {run : RunSummary} {issues : List Issue} {entry : Path × Option Path} {row : List Cell}

/-! ### What literal cells show -/

theorem shown_eq_self {text : Text} (h : ∀ c ∈ text, isCursorControl c = false) : shown text = text := by
  refine List.filter_eq_self.2 fun c hc => ?_
  rw [h c hc]
  rfl

theorem filter_brackets_shown (text : Text) :
    (shown text).filter (· ∈ ['[', ']']) = text.filter (· ∈ ['[', ']']) := by
  rw [shown, List.filter_filter]
  refine List.filter_congr fun c _ => ?_
  by_cases hbracket : c ∈ ['[', ']']
  · have hshown : isCursorControl c = false := by
      rw [List.mem_pair] at hbracket
      obtain rfl | rfl := hbracket <;> decide
    simp [hbracket, hshown]
  · simp [hbracket]

/-! ### Rows -/

/-- What the table about a run has rows for: the files and where they were written, and then the failures. -/
def entries (run : RunSummary) : List (Path × Option Path) :=
  run.files.map (fun file => (file.source, file.destination)) ++ run.failures.map fun failure => (failure.1, none)

/-- The row holds the source literally, the destination as markup, and nothing else that is exposed. -/
structure IsRunRow (entry : Path × Option Path) (row : List Cell) : Prop where
  source : ∃ cell, row[0]? = some cell ∧ cell.Holds entry.1.toText
  destination : row[1]? = some (.markup (entry.2.elim ['-'] Path.toText))
  others : ∀ index cell, row[index]? = some cell → index ≠ 1 → ¬ cell.IsExposed

/-- The row holds what the issue says literally, and nothing is exposed. -/
structure IsIssueRow (issue : Issue) (row : List Cell) : Prop where
  holds : ∃ file line marker message, row = [file, line, marker, message] ∧ file.Holds issue.file ∧ marker.Holds issue.marker ∧
    message.Holds issue.message.toList
  covered : ∀ cell ∈ row, ¬ cell.IsExposed

theorem isRunRow_rowCells (source : Path) (destination : Option Path) (citations : Int) (unresolved : Nat) (status : Status) :
    IsRunRow (source, destination)
      (rowCells { source := source.toText, destination := destination.elim ['-'] Path.toText, citations, unresolved, status }) := by
  refine ⟨⟨_, rfl, "", rfl⟩, rfl, fun index cell hcell hother => ?_⟩
  match index with
  | 0 | 3 | 4 =>
    obtain rfl := Option.some.inj hcell
    exact Cell.not_isExposed_literal _ _
  | 1 => exact absurd rfl hother
  | 2 =>
    obtain rfl := Option.some.inj hcell
    exact Cell.not_isExposed_ofInt _
  | _ + 5 => cases hcell

theorem isIssueRow_issueCells (issue : Issue) : IsIssueRow issue (issueCells issue) := by
  refine ⟨⟨_, _, _, _, rfl, ⟨"", rfl⟩, ⟨"", rfl⟩, ⟨"", rfl⟩⟩, ?_⟩
  simp only [issueCells, List.forall_mem_cons, List.not_mem_nil, false_imp_iff, implies_true, and_true]
  exact ⟨Cell.not_isExposed_literal _ _, Cell.not_isExposed_ofInt _, Cell.not_isExposed_literal _ _, Cell.not_isExposed_literal _ _⟩

theorem IsRunRow.exists_isExposed_iff (h : IsRunRow entry row) :
    (∃ cell ∈ row, cell.IsExposed) ↔ ∃ path ∈ entry.2, '[' ∈ path.toText := by
  constructor
  · rintro ⟨cell, hcell, hexposed⟩
    obtain ⟨index, hindex⟩ := List.mem_iff_getElem?.1 hcell
    by_cases hone : index = 1
    · subst hone
      obtain rfl := Option.some.inj (h.destination.symm.trans hindex)
      cases hpath : entry.2 with
      | none =>
        rw [hpath] at hexposed
        exact absurd hexposed (by decide)
      | some path =>
        rw [hpath] at hexposed
        exact ⟨path, rfl, hexposed⟩
    · exact absurd hexposed (h.others index cell hindex hone)
  · rintro ⟨path, hpath, hbracket⟩
    refine ⟨_, List.mem_of_getElem? h.destination, ?_⟩
    rw [Option.mem_def.1 hpath]
    exact hbracket

theorem forall₂_rows (run : RunSummary) : List.Forall₂ IsRunRow (entries run) ((rows run).map rowCells) := by
  rw [entries, rows, List.map_append]
  refine List.rel_append ?_ ?_
  · rw [List.map_map, List.forall₂_map_left_iff, List.forall₂_map_right_iff, List.forall₂_same]
    exact fun file _ => isRunRow_rowCells _ _ _ _ _
  · rw [List.map_map, List.forall₂_map_left_iff, List.forall₂_map_right_iff, List.forall₂_same]
    exact fun failure _ => isRunRow_rowCells _ none _ _ _

/-! ### Reports -/

theorem infix_failurePanel {failures : List (Path × CitationError)} {failure : Path × CitationError} (h : failure ∈ failures) :
    ∃ content title borderStyle expand, failurePanel failures = .panel content title borderStyle expand ∧
      shown failure.2.describe.toList <:+: content := by
  refine ⟨_, _, _, _, rfl, List.IsInfix.filter _ ?_⟩
  refine List.IsInfix.trans ?_ (Text.infix_join_of_mem (List.mem_map_of_mem h))
  obtain ⟨source, error⟩ := failure
  show error.describe.toList <:+: ("- " ++ error.describe).toList
  rw [String.toList_append]
  exact (List.suffix_append _ _).isInfix

theorem cells_eq_nil_of_mem_panels {display : Display}
    (h : display ∈ if run.failures.isEmpty then [] else [failurePanel run.failures]) : display.cells = [] := by
  split at h
  · cases h
  · obtain rfl := List.mem_singleton.1 h
    rfl

theorem exists_cell_runDisplay_iff {P : Cell → Prop} :
    (∃ display ∈ runDisplay run, ∃ cell ∈ display.cells, P cell) ↔ ∃ row ∈ (rows run).map rowCells, ∃ cell ∈ row, P cell := by
  have hcells : (runTable (rows run)).cells = ((rows run).map rowCells).flatten := rfl
  have hpanel : ¬ ∃ display ∈ (if run.failures.isEmpty then [] else [failurePanel run.failures]), ∃ cell ∈ display.cells, P cell := by
    rintro ⟨display, hdisplay, cell, hcell, -⟩
    rw [cells_eq_nil_of_mem_panels hdisplay] at hcell
    cases hcell
  rw [runDisplay, List.exists_mem_cons_iff, or_iff_left hpanel, hcells]
  simp only [List.mem_flatten]
  constructor
  · rintro ⟨cell, ⟨row, hrow, hcell⟩, hP⟩
    exact ⟨row, hrow, cell, hcell, hP⟩
  · rintro ⟨row, hrow, cell, hcell, hP⟩
    exact ⟨cell, ⟨row, hrow, hcell⟩, hP⟩

theorem exists_entry_iff : (∃ entry ∈ entries run, ∃ path ∈ entry.2, '[' ∈ path.toText) ↔
    ∃ file ∈ run.files, ∃ path ∈ file.destination, '[' ∈ path.toText := by
  simp [entries, or_and_right, exists_or]

/-- The table about a run has a bracket in its markup exactly if a file was written to a path with one, and the table of issues never has. All else that the reports tell is handed over literally, and only characters that move the cursor are left out of it. -/
theorem exposed_iff_destination (run : RunSummary) (issues : List Issue) :
    ((∃ display ∈ runDisplay run, ∃ cell ∈ display.cells, cell.IsExposed) ↔
        ∃ file ∈ run.files, ∃ path ∈ file.destination, '[' ∈ path.toText) ∧
      (∃ title columns table others, runDisplay run = .table title columns table :: others ∧
        List.Forall₂ IsRunRow (entries run) table ∧ ∀ display ∈ others, display.cells = []) ∧
      (∀ failure ∈ run.failures, ∃ content title borderStyle expand, .panel content title borderStyle expand ∈ runDisplay run ∧
        shown failure.2.describe.toList <:+: content) ∧
      (∀ display ∈ issuesDisplay issues, ∀ cell ∈ display.cells, ¬ cell.IsExposed) ∧
      (issues ≠ [] → ∃ title columns table, issuesDisplay issues = [.table title columns table] ∧
        List.Forall₂ IsIssueRow issues table) ∧
      (∀ text, (shown text).filter (· ∈ ['[', ']']) = text.filter (· ∈ ['[', ']'])) ∧
      ∀ text, (∀ c ∈ text, isCursorControl c = false) → shown text = text := by
  refine ⟨?_, ?_, ?_, ?_, ?_, filter_brackets_shown, fun text => shown_eq_self⟩
  · rw [exists_cell_runDisplay_iff, ← exists_entry_iff]
    exact (Outcome.exists_mem_iff_of_forall₂ (forall₂_rows run) fun entry row hrow => hrow.exists_isExposed_iff.symm).symm
  · exact ⟨_, _, _, _, rfl, forall₂_rows run, fun display => cells_eq_nil_of_mem_panels⟩
  · intro failure hfailure
    obtain ⟨content, title, borderStyle, expand, hpanel, hline⟩ := infix_failurePanel hfailure
    refine ⟨content, title, borderStyle, expand, List.mem_cons_of_mem _ ?_, hline⟩
    rw [if_neg (by simpa using List.ne_nil_of_mem hfailure), hpanel]
    exact List.mem_singleton_self _
  · intro display hdisplay cell hcell
    rw [issuesDisplay] at hdisplay
    split at hdisplay
    · obtain rfl := List.mem_singleton.1 hdisplay
      cases hcell
    · obtain rfl := List.mem_singleton.1 hdisplay
      obtain ⟨row, hrow, hcell⟩ := List.mem_flatten.1 hcell
      obtain ⟨issue, -, rfl⟩ := List.mem_map.1 hrow
      exact (isIssueRow_issueCells issue).covered cell hcell
  · intro hissues
    rw [issuesDisplay, if_neg (by simpa using hissues)]
    refine ⟨_, _, _, rfl, ?_⟩
    rw [List.forall₂_map_right_iff, List.forall₂_same]
    exact fun issue _ => isIssueRow_issueCells issue

def noteTree : Tree := ⟨[], .file "d".toList (Charset.Utf8.encode "x\n".toList) .empty⟩

/-- The report on a file that is written to a directory with brackets in its name has the path as markup. -/
theorem exists_destination_as_markup :
    ∃ display ∈ (Command.run noteTree ["-o".toList, "o[x]".toList, "--format".toList, "rich".toList, "d".toList]).shown,
      Cell.markup "o[x]/d".toList ∈ display.cells ∧ (Cell.markup "o[x]/d".toList).IsExposed := by
  decide +kernel

end Report

end Quotation
