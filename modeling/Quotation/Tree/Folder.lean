import Quotation.Charset.Basic
import Quotation.Path

/-!
# Folders

A folder holds files and folders under their names. The rest of the library sees only what stands at each place below it: `get?_insert` and `get?_erase` say what an insertion and a removal do to this view, `get?_dropLast` that everything stands in a directory, and `mem_list_iff` that listing a folder shows exactly what the view has. Where a name stands more than once, the first one counts.
-/

namespace Quotation

inductive Entry where
  | file (content : Bytes)
  | directory
  deriving DecidableEq, Repr

/-- Files and folders under their names, in no particular order. -/
inductive Folder where
  | empty
  | file (name : Text) (content : Bytes) (others : Folder)
  | folder (name : Text) (inside others : Folder)
  deriving DecidableEq, Repr

inductive Item where
  | file (content : Bytes)
  | folder (inside : Folder)
  deriving DecidableEq, Repr

namespace Folder

/-! ### One name -/

def find? : Folder → Text → Option Item
  | .empty, _ => none
  | .file key content others, name => if key = name then some (.file content) else others.find? name
  | .folder key inside others, name => if key = name then some (.folder inside) else others.find? name

def without : Folder → Text → Folder
  | .empty, _ => .empty
  | .file key content others, name => if key = name then others.without name else .file key content (others.without name)
  | .folder key inside others, name => if key = name then others.without name else .folder key inside (others.without name)

/-- Lets a name stand for an item, whatever it stood for before. -/
def set (f : Folder) (name : Text) : Item → Folder
  | .file content => .file name content (f.without name)
  | .folder inside => .folder name inside (f.without name)

theorem find?_without (f : Folder) {key name : Text} (h : key ≠ name) : (f.without name).find? key = f.find? key := by
  induction f with
  | empty => rfl
  | file k content others ih =>
    by_cases hk : k = name
    · rw [without, if_pos hk, ih, find?, if_neg (hk ▸ h.symm)]
    · rw [without, if_neg hk, find?, find?, ih]
  | folder k inside others _ ih =>
    by_cases hk : k = name
    · rw [without, if_pos hk, ih, find?, if_neg (hk ▸ h.symm)]
    · rw [without, if_neg hk, find?, find?, ih]

theorem find?_without_self (f : Folder) (name : Text) : (f.without name).find? name = none := by
  induction f with
  | empty => rfl
  | file key content others ih =>
    by_cases hkey : key = name
    · rw [without, if_pos hkey, ih]
    · rw [without, if_neg hkey, find?, if_neg hkey, ih]
  | folder key inside others _ ih =>
    by_cases hkey : key = name
    · rw [without, if_pos hkey, ih]
    · rw [without, if_neg hkey, find?, if_neg hkey, ih]

theorem find?_set (f : Folder) (name key : Text) (item : Item) :
    (f.set name item).find? key = if name = key then some item else f.find? key := by
  by_cases h : name = key
  · cases item <;> simp [set, find?, h]
  · cases item <;> simp [set, find?, h, find?_without f (Ne.symm h)]

/-! ### Places -/

def get? : Folder → Place → Option Entry
  | _, [] => some .directory
  | f, name :: rest =>
    match f.find? name with
    | none => none
    | some (.file content) => if rest = [] then some (.file content) else none
    | some (.folder inside) => inside.get? rest

/-- What a name stands for once an entry has been put there; a folder stays what it is when a directory is put there again. -/
def newItem : Entry → Option Item → Item
  | .file content, _ => .file content
  | .directory, some (.folder inside) => .folder inside
  | .directory, _ => .folder .empty

/-- Puts an entry at a place in a directory that is there; a directory stays what it is where there is one already. -/
def insert : Folder → Place → Entry → Folder
  | f, [], _ => f
  | f, [name], entry => f.set name (newItem entry (f.find? name))
  | f, name :: next :: rest, entry =>
    match f.find? name with
    | some (.folder inside) => f.set name (.folder (inside.insert (next :: rest) entry))
    | _ => f

def erase : Folder → Place → Folder
  | _, [] => .empty
  | f, [name] => f.without name
  | f, name :: next :: rest =>
    match f.find? name with
    | some (.folder inside) => f.set name (.folder (inside.erase (next :: rest)))
    | _ => f

def list : Folder → List (Place × Entry)
  | .empty => []
  | .file name content others => ([name], .file content) :: others.list.filter fun (place, _) => place.head? ≠ some name
  | .folder name inside others =>
    ([name], .directory) :: inside.list.map (fun (place, entry) => (name :: place, entry)) ++
      others.list.filter fun (place, _) => place.head? ≠ some name

@[simp] theorem get?_nil (f : Folder) : f.get? [] = some .directory := rfl

theorem get?_cons (f : Folder) (name : Text) (rest : Place) :
    f.get? (name :: rest) =
      match f.find? name with
      | none => none
      | some (.file content) => if rest = [] then some (.file content) else none
      | some (.folder inside) => inside.get? rest := rfl

/-- Everything stands in a directory. -/
theorem get?_dropLast (f : Folder) (place : Place) (h : (f.get? place).isSome) : f.get? place.dropLast = some .directory := by
  induction place generalizing f with
  | nil => rfl
  | cons name rest ih =>
    rw [get?_cons] at h
    cases rest with
    | nil => rfl
    | cons next rest =>
      rw [List.dropLast_cons_cons, get?_cons]
      cases hfind : f.find? name with
      | none => simp [hfind] at h
      | some item =>
        cases item with
        | file content => simp [hfind] at h
        | folder inside =>
          rw [hfind] at h
          exact ih inside h

/-- Nothing but the entry itself changes, unless a file takes the place of a directory. -/
theorem get?_insert (f : Folder) (place other : Place) (entry : Entry) (hplace : place ≠ [])
    (hparent : f.get? place.dropLast = some .directory) (hkind : f.get? place = some .directory → entry = .directory) :
    (f.insert place entry).get? other = if other = place then some entry else f.get? other := by
  fun_induction insert f place entry generalizing other with
  | case1 => exact absurd rfl hplace
  | case2 f name entry =>
    cases other with
    | nil => simp
    | cons key rest =>
      rw [get?_cons, find?_set]
      by_cases hkey : name = key
      · subst hkey
        rw [get?_cons] at hkind ⊢
        cases hfind : f.find? name with
        | none => cases entry <;> cases rest <;> simp [newItem, get?_cons, find?]
        | some item => cases item <;> cases entry <;> cases rest <;> simp_all [newItem, get?_cons, find?]
      · rw [if_neg hkey, get?_cons, if_neg (by simp [Ne.symm hkey])]
  | case3 f name next rest entry inside hfind ih =>
    rw [List.dropLast_cons_cons, get?_cons, hfind] at hparent
    rw [get?_cons, hfind] at hkind
    cases other with
    | nil => simp
    | cons key others =>
      rw [get?_cons, find?_set]
      by_cases hkey : name = key
      · subst hkey
        rw [if_pos rfl, get?_cons, hfind]
        simpa using ih others (by simp) hparent hkind
      · rw [if_neg hkey, get?_cons, if_neg (by simp [Ne.symm hkey])]
  | case4 f name next rest entry hfind =>
    rw [List.dropLast_cons_cons, get?_cons] at hparent
    cases hitem : f.find? name with
    | none => simp [hitem] at hparent
    | some item =>
      cases item with
      | file content => simp [hitem] at hparent
      | folder inside => exact absurd hitem (hfind inside)

/-- What stands at the place and below it is gone, and nothing else changes. -/
theorem get?_erase (f : Folder) (place other : Place) (hplace : place ≠ []) :
    (f.erase place).get? other = if place <+: other then none else f.get? other := by
  fun_induction erase f place generalizing other with
  | case1 => exact absurd rfl hplace
  | case2 f name =>
    cases other with
    | nil => simp
    | cons key rest =>
      by_cases hkey : name = key
      · subst hkey
        rw [get?_cons, find?_without_self, if_pos (by simp)]
      · rw [get?_cons, find?_without f (Ne.symm hkey), if_neg (by simp [hkey]), get?_cons]
  | case3 f name next rest inside hfind ih =>
    cases other with
    | nil => simp
    | cons key others =>
      rw [get?_cons, find?_set]
      by_cases hkey : name = key
      · subst hkey
        rw [if_pos rfl, get?_cons, hfind]
        simpa [List.cons_prefix_cons] using ih others (by simp)
      · rw [if_neg hkey, get?_cons, if_neg (by simp [hkey])]
  | case4 f name next rest hfind =>
    split
    · next hbelow =>
      obtain ⟨below, rfl⟩ := hbelow
      rw [List.cons_append, List.cons_append, get?_cons]
      cases hitem : f.find? name with
      | none => rfl
      | some item =>
        cases item with
        | file content => simp
        | folder inside => exact absurd hitem (hfind inside)
    · rfl

/-- The list shows what stands below the folder, and nothing else. -/
theorem mem_list_iff (f : Folder) (place : Place) (entry : Entry) :
    (place, entry) ∈ f.list ↔ place ≠ [] ∧ f.get? place = some entry := by
  induction f generalizing place entry with
  | empty => cases place <;> simp [list, get?_cons, find?]
  | file key content others ih =>
    cases place with
    | nil => simp [list, ih]
    | cons name rest =>
      by_cases h : key = name
      · subst h
        by_cases hrest : rest = [] <;> simp [list, get?_cons, find?, hrest, eq_comm]
      · simp [list, ih, get?_cons, find?, h, Ne.symm h]
  | folder key inside others ihInside ihOthers =>
    cases place with
    | nil => simp [list, ihOthers]
    | cons name rest =>
      by_cases h : key = name
      · subst h
        by_cases hrest : rest = [] <;> simp [list, ihInside, get?_cons, find?, hrest, eq_comm]
      · simp [list, ihOthers, get?_cons, find?, h, Ne.symm h]

end Folder

end Quotation
