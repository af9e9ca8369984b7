import Quotation.Tree.Basic

/-!
# Changes

What an operation did to a tree, told by comparing the trees before and after it.
-/

namespace Quotation.Tree

/-- The entries that are new or have other content than before. -/
def written (before after : Tree) : List (Place × Entry) :=
  after.entries.filter fun (place, entry) => before.get? place ≠ some entry

/-- The places where something stood before and nothing does now. -/
def removed (before after : Tree) : List Place :=
  (before.entries.filter fun (place, _) => after.get? place = none).map (·.1)

theorem mem_written_iff (before after : Tree) (place : Place) (entry : Entry) :
    (place, entry) ∈ written before after ↔ place ≠ [] ∧ after.get? place = some entry ∧ before.get? place ≠ some entry := by
  simp [written, mem_entries_iff, and_assoc]

theorem mem_removed_iff (before after : Tree) (place : Place) :
    place ∈ removed before after ↔ place ≠ [] ∧ (before.get? place).isSome ∧ after.get? place = none := by
  simp only [removed, List.mem_map, List.mem_filter, Prod.exists, mem_entries_iff, decide_eq_true_eq, Option.isSome_iff_exists]
  constructor
  · rintro ⟨_, entry, ⟨⟨hplace, hentry⟩, hnone⟩, rfl⟩
    exact ⟨hplace, ⟨entry, hentry⟩, hnone⟩
  · rintro ⟨hplace, ⟨entry, hentry⟩, hnone⟩
    exact ⟨place, entry, ⟨⟨hplace, hentry⟩, hnone⟩, rfl⟩

end Quotation.Tree
