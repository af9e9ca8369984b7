import Quotation.Fault
import Quotation.Tree.Folder

/-!
# File trees

A file tree is the folder at the root and a working directory. It says what stands at each place: a file with its bytes, a directory, or nothing. Everything stands in a directory (`get?_dropLast`), and `get?_insert` says what an insertion does; nothing else is needed to reason about writing.
-/

namespace Quotation

structure Tree where
  /-- The working directory, where relative paths start. -/
  cwd : Place
  root : Folder
  deriving DecidableEq, Repr

namespace Tree

def get? (t : Tree) (place : Place) : Option Entry := t.root.get? place

def entries (t : Tree) : List (Place × Entry) := t.root.list

def insert (t : Tree) (place : Place) (entry : Entry) : Tree := { t with root := t.root.insert place entry }

def erase (t : Tree) (place : Place) : Tree := { t with root := t.root.erase place }

@[simp] theorem get?_root (t : Tree) : t.get? [] = some .directory := rfl

@[simp] theorem cwd_erase (t : Tree) (place : Place) : (t.erase place).cwd = t.cwd := rfl

@[simp] theorem cwd_insert (t : Tree) (place : Place) (entry : Entry) : (t.insert place entry).cwd = t.cwd := rfl

theorem mem_entries_iff (t : Tree) (place : Place) (entry : Entry) :
    (place, entry) ∈ t.entries ↔ place ≠ [] ∧ t.get? place = some entry := t.root.mem_list_iff place entry

/-- Everything stands in a directory. -/
theorem get?_dropLast (t : Tree) (place : Place) (h : (t.get? place).isSome) : t.get? place.dropLast = some .directory :=
  t.root.get?_dropLast place h

/-- Nothing but the entry itself changes, unless a file takes the place of a directory. -/
theorem get?_insert (t : Tree) (place other : Place) (entry : Entry) (hplace : place ≠ [])
    (hparent : t.get? place.dropLast = some .directory) (hkind : t.get? place = some .directory → entry = .directory) :
    (t.insert place entry).get? other = if other = place then some entry else t.get? other :=
  t.root.get?_insert place other entry hplace hparent hkind

/-- What stands at the place and below it is gone, and nothing else changes. -/
theorem get?_erase (t : Tree) (place other : Place) (hplace : place ≠ []) :
    (t.erase place).get? other = if place <+: other then none else t.get? other := t.root.get?_erase place other hplace

end Tree

end Quotation
