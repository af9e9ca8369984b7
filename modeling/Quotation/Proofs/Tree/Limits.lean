import Quotation.Proofs.Text.Pieces
import Quotation.Proofs.Tree.Growth

/-!
# The limits of the system

The system takes paths and names up to a number of bytes. Whether a path within these limits leads to a directory can always be told (`exists_isDir`), so texts can be resolved as if they stood there. A path of fewer names is not too long either (`Path.IsShort.upTo`).
-/

namespace Quotation

open Outcome

theorem Charset.Utf8.size_append (s t : Text) : size (s ++ t) = size s + size t := by
  induction s with
  | nil => simp [size]
  | cons c cs ih => rw [List.cons_append, size, size, ih, Nat.add_assoc]

theorem Path.toText_of_ne_nil (anchor : Anchor) {parts : List Text} (h : parts ≠ []) :
    (Path.mk anchor parts).toText = slashes anchor ++ Text.join '/' parts := by
  rw [toText]
  split
  · next hparts => exact absurd hparts h
  · rfl

def Path.IsShort (p : Path) : Prop := Charset.Utf8.size p.toText ≤ pathLimit

instance (p : Path) : Decidable p.IsShort := inferInstanceAs (Decidable (_ ≤ _))

/-- The path keeps within the limits of the system, as a whole and in each of its names. -/
def Path.WithinLimits (p : Path) : Prop := p.IsShort ∧ ∀ part ∈ p.parts, Charset.Utf8.size part ≤ nameLimit

instance (p : Path) : Decidable p.WithinLimits := inferInstanceAs (Decidable (_ ∧ ∀ part ∈ p.parts, _))

theorem Path.IsShort.upTo {p : Path} (h : p.IsShort) (count : Nat) : (p.upTo count).IsShort := by
  obtain ⟨anchor, parts⟩ := p
  rw [IsShort, Path.upTo]
  dsimp only
  by_cases hfirst : parts.take count = []
  · rw [hfirst]
    cases anchor <;> decide
  · have hparts : parts ≠ [] := by
      rintro rfl
      simp at hfirst
    have hwhole : Charset.Utf8.size (slashes anchor ++ Text.join '/' (parts.take count ++ parts.drop count)) ≤ pathLimit := by
      rw [List.take_append_drop, ← toText_of_ne_nil anchor hparts]
      exact h
    rw [toText_of_ne_nil anchor hfirst]
    by_cases hrest : parts.drop count = []
    · rwa [hrest, List.append_nil] at hwhole
    · rw [Text.join_append hfirst hrest] at hwhole
      simp only [Charset.Utf8.size_append] at hwhole ⊢
      omega

namespace Tree

variable {t : Tree} {p : Path}

theorem walk_ne_nameTooLong {parts : List Text} (h : ∀ part ∈ parts, Charset.Utf8.size part ≤ nameLimit) (start : Place) :
    t.walk start parts ≠ .error .nameTooLong := by
  induction parts generalizing start with
  | nil => simp [walk]
  | cons part parts ih =>
    obtain ⟨hpart, hparts⟩ := List.forall_mem_cons.1 h
    rw [walk]
    split
    · simp
    · simp
    · split
      · exact ih hparts _
      · split
        · exact ih hparts _
        · rw [if_neg (Nat.not_lt.2 hpart)]
          exact ih hparts _

theorem size_le_of_walk {start reached : Place} {names : List Text} (h : t.walk start names = .ok reached) :
    ∀ name ∈ names, name ≠ Path.up → name ≠ Path.stay → Charset.Utf8.size name ≤ nameLimit := by
  induction names generalizing start with
  | nil => simp
  | cons first rest ih =>
    intro name hname hup hstay
    rw [walk] at h
    split at h
    · cases h
    · cases h
    · split at h
      · next hfirst => exact ih h name ((List.mem_cons.1 hname).resolve_left fun heq => hup (heq.trans hfirst)) hup hstay
      · split at h
        · next hfirst => exact ih h name ((List.mem_cons.1 hname).resolve_left fun heq => hstay (heq.trans hfirst)) hup hstay
        · split at h
          · cases h
          · next hshort =>
            obtain rfl | hname := List.mem_cons.1 hname
            · exact Nat.le_of_not_lt hshort
            · exact ih h name hname hup hstay

/-- Whether a path leads to a directory can be told within the limits. -/
theorem exists_isDir (t : Tree) (h : p.WithinLimits) : ∃ found, t.isDir p = .ok found := by
  have hreach : t.reach p ≠ .error (.os .nameTooLong) := by
    intro hlong
    rw [reach_eq] at hlong
    split at hlong
    · cases hlong
    · rw [if_neg (Nat.not_lt.2 h.1)] at hlong
      cases hwalk : t.walk (t.startOf p) p.parts with
      | ok reached => simp [hwalk, Except.mapError] at hlong
      | error e =>
        rw [hwalk] at hlong
        obtain rfl := Fault.os.inj (Except.error.inj hlong)
        exact walk_ne_nameTooLong h.2 _ hwalk
  have hentry : t.entry p ≠ .error (.os .nameTooLong) := by
    intro hlong
    rw [entry, entryAt] at hlong
    cases hplace : t.reach p with
    | error fault =>
      rw [hplace] at hlong
      exact hreach (hplace.trans (congrArg Except.error (Except.error.inj hlong)))
    | ok place =>
      rw [hplace] at hlong
      cases hget : t.get? place <;> simp [bind, Except.bind, hget, throw, throwThe, MonadExceptOf.throw, pure, Except.pure] at hlong
  rw [isDir]
  split
  · exact ⟨true, rfl⟩
  · exact ⟨false, rfl⟩
  · next hlong => exact absurd hlong hentry
  · exact ⟨false, rfl⟩

end Tree

/-! ### Citing files -/

namespace Context

variable {t : Tree} {ctx : Context} {citing : Path} {recursive : Bool}

theorem exists_ofCiting (t : Tree) (recursive : Bool) (h : citing.WithinLimits) : ∃ ctx, ofCiting t recursive citing = .ok ctx := by
  obtain ⟨found, hfound⟩ := Tree.exists_isDir t h
  exact ⟨{ baseDir := if found then citing else citing.parent, citingFile := citing, recursive }, by rw [ofCiting, hfound]; rfl⟩

theorem recursive_of_ofCiting (h : ofCiting t recursive citing = .ok ctx) : ctx.recursive = recursive := by
  obtain ⟨found, -, hctx⟩ := bind_eq_ok_iff.1 h
  exact Except.ok.inj hctx ▸ rfl

theorem isDir_of_ofCiting (h : ofCiting t recursive citing = .ok ctx) : ∃ found, t.isDir ctx.citingFile = .ok found := by
  obtain ⟨found, hfound, hctx⟩ := bind_eq_ok_iff.1 h
  exact Except.ok.inj hctx ▸ ⟨found, hfound⟩

end Context

end Quotation
