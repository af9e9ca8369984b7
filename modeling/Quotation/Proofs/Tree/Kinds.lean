import Quotation.Proofs.Tree.Clearance
import Quotation.Proofs.Tree.Trail

/-!
# Files and directories, whatever they hold

Two trees may agree on which paths lead to files and which to directories (`AgreeOnKinds`). Then they also agree on why any other path leads nowhere: up to the name where that shows it leads to the same kinds of things (`entry_upTo_succ`). So a path leads to the same in both trees or to a file in both, and it is read with the same result unless the files hold different bytes.
-/

namespace Quotation.Tree

open Outcome

/-- The same paths lead to files in both trees, and the same paths to directories. -/
structure AgreeOnKinds (t u : Tree) : Prop where
  isFile : ∀ p, u.isFile p = t.isFile p
  isDir : ∀ p, u.isDir p = .ok true ↔ t.isDir p = .ok true

variable {t u : Tree} {p : Path} {place : Place} {count : Nat} {fault : Fault}

/-! ### Going on by one name -/

/-- What is wrong with a path that leads nowhere, given its last name and what the names before it lead to. -/
def missingFault (name : Text) : Except Fault Entry → Fault
  | .error fault => fault
  | .ok (.file _) => .os .notDirectory
  | .ok .directory =>
    if name ≠ Path.up ∧ name ≠ Path.stay ∧ nameLimit < Charset.Utf8.size name then .os .nameTooLong else .os .notFound

theorem entryAt_ok (t : Tree) (place : Place) :
    t.entryAt (.ok place) = match t.get? place with | some entry => .ok entry | none => .error (.os .notFound) := by
  change (match t.get? place with | some entry => pure entry | none => throw (Fault.os .notFound)) = _
  cases t.get? place <;> rfl

theorem eq_notFound_of_entryAt (h : t.entryAt (.ok place) = .error fault) : fault = .os .notFound := by
  rw [entryAt_ok] at h
  cases hget : t.get? place with
  | some entry => simp [hget] at h
  | none => simpa [hget, eq_comm] using h

theorem reach_upTo_of_isShort (t : Tree) (hnull : p.hasNull = false) (hshort : p.IsShort) (count : Nat) :
    t.reach (p.upTo count) = (t.walk (t.startOf p) (p.parts.take count)).mapError .os := by
  have hnone : (p.upTo count).hasNull = false := by
    rw [Path.hasNull, List.any_eq_false] at hnull ⊢
    exact fun part hpart => hnull part (List.mem_of_mem_take hpart)
  rw [reach_eq, hnone, if_neg (by simp), if_neg (Nat.not_lt.2 (hshort.upTo count))]
  rfl

theorem eq_notFound_of_upTo_zero (hnull : p.hasNull = false) (hshort : p.IsShort) (h : t.entry (p.upTo 0) = .error fault) :
    fault = .os .notFound := by
  rw [entry, reach_upTo_of_isShort t hnull hshort] at h
  exact eq_notFound_of_entryAt h

theorem eq_missingFault_of_walk {name : Text} (h : t.entryAt ((t.walk place [name]).mapError .os) = .error fault) :
    fault = missingFault name (t.entryAt (.ok place)) := by
  rw [walk_singleton] at h
  rw [entryAt_ok]
  cases hget : t.get? place with
  | none =>
    rw [hget] at h
    exact (Except.error.inj h).symm
  | some entry =>
    rw [hget] at h
    cases entry with
    | file content => exact (Except.error.inj h).symm
    | directory =>
      dsimp only at h ⊢
      rw [missingFault]
      by_cases hlong : name ≠ Path.up ∧ name ≠ Path.stay ∧ nameLimit < Charset.Utf8.size name
      · obtain ⟨hup, hstay, hsize⟩ := hlong
        rw [if_neg hup, if_neg hstay, if_pos hsize] at h
        rw [if_pos ⟨hup, hstay, hsize⟩]
        exact (Except.error.inj h).symm
      · rw [if_neg hlong]
        split at h
        · exact eq_notFound_of_entryAt h
        · next hup =>
          split at h
          · exact eq_notFound_of_entryAt h
          · next hstay =>
            rw [if_neg fun hsize => hlong ⟨hup, hstay, hsize⟩] at h
            exact eq_notFound_of_entryAt h

theorem entry_upTo_succ (hnull : p.hasNull = false) (hshort : p.IsShort) (hcount : count < p.parts.length)
    (h : t.entry (p.upTo (count + 1)) = .error fault) : fault = missingFault p.parts[count] (t.entry (p.upTo count)) := by
  rw [entry, reach_upTo_of_isShort t hnull hshort, List.take_succ_eq_append_getElem hcount, walk_append] at h
  rw [entry, reach_upTo_of_isShort t hnull hshort]
  cases hwalk : t.walk (t.startOf p) (p.parts.take count) with
  | error e =>
    rw [hwalk] at h
    exact (Except.error.inj h).symm
  | ok place =>
    rw [hwalk] at h
    exact eq_missingFault_of_walk h

/-! ### The same kinds -/

/-- A path leads to the same in both trees, or to a file in both. -/
def SameOrFiles (t u : Tree) (p : Path) : Prop :=
  u.entry p = t.entry p ∨ ∃ a b, t.entry p = .ok (.file a) ∧ u.entry p = .ok (.file b)

namespace AgreeOnKinds

theorem symm (h : AgreeOnKinds t u) : AgreeOnKinds u t := ⟨fun p => (h.isFile p).symm, fun p => (h.isDir p).symm⟩

theorem sameOrFiles_of_ok (h : AgreeOnKinds t u) {entry : Entry} (hentry : t.entry p = .ok entry) : SameOrFiles t u p := by
  cases entry with
  | file content =>
    have hfile : u.isFile p = true := by rw [h.isFile p, Tree.isFile, hentry]
    obtain ⟨other, hother⟩ := exists_read_of_isFile hfile
    exact .inr ⟨content, other, hentry, read_eq_ok_iff.1 hother⟩
  | directory =>
    have hdir : t.isDir p = .ok true := by rw [Tree.isDir, hentry]
    exact .inl ((entry_of_isDir ((h.isDir p).2 hdir)).trans hentry.symm)

theorem sameOrFiles_or_errors (h : AgreeOnKinds t u) (p : Path) :
    SameOrFiles t u p ∨ ∃ fault fault', t.entry p = .error fault ∧ u.entry p = .error fault' := by
  cases hentry : t.entry p with
  | ok entry => exact .inl (h.sameOrFiles_of_ok hentry)
  | error fault =>
    cases hentry' : u.entry p with
    | error fault' => exact .inr ⟨fault, fault', rfl, rfl⟩
    | ok entry =>
      obtain hsame | ⟨a, b, ha, hb⟩ := h.symm.sameOrFiles_of_ok hentry'
      · exact .inl (.inl hsame.symm)
      · exact .inl (.inr ⟨b, a, hb, ha⟩)

theorem sameOrFiles_upTo (h : AgreeOnKinds t u) (hnull : p.hasNull = false) (hshort : p.IsShort) (hcount : count ≤ p.parts.length) :
    SameOrFiles t u (p.upTo count) := by
  induction count with
  | zero =>
    obtain hsame | ⟨fault, fault', hfault, hfault'⟩ := h.sameOrFiles_or_errors (p.upTo 0)
    · exact hsame
    · obtain rfl := eq_notFound_of_upTo_zero hnull hshort hfault
      obtain rfl := eq_notFound_of_upTo_zero hnull hshort hfault'
      exact .inl (hfault'.trans hfault.symm)
  | succ count ih =>
    obtain hsame | ⟨fault, fault', hfault, hfault'⟩ := h.sameOrFiles_or_errors (p.upTo (count + 1))
    · exact hsame
    · have hcause := entry_upTo_succ hnull hshort hcount hfault
      have hcause' := entry_upTo_succ hnull hshort hcount hfault'
      have hbefore : missingFault p.parts[count] (u.entry (p.upTo count)) = missingFault p.parts[count] (t.entry (p.upTo count)) := by
        obtain hsame | ⟨a, b, ha, hb⟩ := ih (Nat.le_of_succ_le hcount)
        · rw [hsame]
        · rw [ha, hb]
          rfl
      refine .inl ?_
      rw [hfault, hfault', hcause, hcause', hbefore]

/-- Trees that agree on the kinds of things agree on each path that does not lead to files. -/
theorem sameOrFiles (h : AgreeOnKinds t u) (p : Path) : SameOrFiles t u p := by
  cases hnull : p.hasNull with
  | true =>
    refine .inl ?_
    rw [entry, entry, reach_eq, reach_eq, if_pos hnull, if_pos hnull]
    rfl
  | false =>
    by_cases hshort : p.IsShort
    · have hwhole : p.upTo p.parts.length = p := by rw [Path.upTo, List.take_length]
      exact hwhole ▸ h.sameOrFiles_upTo hnull hshort (Nat.le_refl _)
    · have hlong : pathLimit < Charset.Utf8.size p.toText := Nat.lt_of_not_le hshort
      refine .inl ?_
      simp only [entry, reach_eq, hnull, Bool.false_eq_true, if_false, if_pos hlong]
      rfl

theorem isDir_eq (h : AgreeOnKinds t u) (p : Path) : u.isDir p = t.isDir p := by
  obtain hsame | ⟨a, b, ha, hb⟩ := h.sameOrFiles p
  · rw [Tree.isDir, Tree.isDir, hsame]
  · rw [Tree.isDir, Tree.isDir, ha, hb]

theorem read_eq (h : AgreeOnKinds t u) (hbytes : ∀ content, t.read p = .ok content → u.read p = .ok content) : u.read p = t.read p := by
  obtain hsame | ⟨a, b, ha, hb⟩ := h.sameOrFiles p
  · exact read_of_entry_eq hsame
  · have hread := read_eq_ok_iff.2 ha
    rw [hread, hbytes a hread]

end AgreeOnKinds

theorem SameKinds.agreeOnKinds (h : SameKinds t u) : AgreeOnKinds t u :=
  ⟨isFile_of_sameKinds h, fun p => by rw [isDir_of_sameKinds h]⟩

theorem sameKinds_insert_file {content : Bytes} (h : t.get? place = some (.file content)) (other : Bytes) :
    SameKinds t (t.insert place (.file other)) := by
  have hplace : place ≠ [] := by
    rintro rfl
    cases h
  have hparent := t.get?_dropLast place (by rw [h]; rfl)
  refine ⟨rfl, fun reached => ?_⟩
  rw [get?_insert t place reached _ hplace hparent (by simp [h])]
  split
  · next hsame => exact .inr ⟨content, other, hsame ▸ h, rfl⟩
  · exact .inl rfl

end Quotation.Tree
