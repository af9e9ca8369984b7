import Quotation.Proofs.Charset.RoundTrip
import Quotation.Proofs.Tree.Reading
import Quotation.Tree.Write

/-!
# Where text is encoded and decoded

Only writing text encodes it, and only reading text decodes it. Walking, making directories and copying fail in other ways than these (`Fault.NotText`), and writing text does so too unless the charset lacks a character of it (`ends_writeLines`). Reading text does not encode (`Fault.NotEncoding`).
-/

namespace Quotation

open Outcome

/-- The fault is another one than that a charset lacks characters. -/
def Fault.NotEncoding : Fault → Prop
  | .encoding _ => False
  | _ => True

def Failure.NotEncoding : Failure → Prop
  | .citation _ => True
  | .fault f => f.NotEncoding

/-- The fault has nothing to do with the bytes that stand for a text. -/
def Fault.NotText : Fault → Prop
  | .encoding _ => False
  | .decoding _ => False
  | .noByteOrderMark => False
  | _ => True

/-- The failure has nothing to do with the bytes that stand for a text, unless it complains of them. -/
def Failure.NotText : Failure → Prop
  | .citation _ => True
  | .fault f => f.NotText

theorem Fault.NotEncoding.failure {fault : Fault} (h : fault.NotEncoding) : (Failure.fault fault).NotEncoding := h

theorem Fault.NotText.failure {fault : Fault} (h : fault.NotText) : (Failure.fault fault).NotText := h

theorem Fault.NotText.notEncoding {fault : Fault} (h : fault.NotText) : fault.NotEncoding := by
  cases fault with
  | encoding e => exact h.elim
  | _ => exact trivial

theorem CitationError.notEncoding_failure (e : CitationError) : e.failure.NotEncoding := trivial

namespace Tree

variable (t : Tree) (p : Path) (encoding : Option Text)

/-! ### Looking things up -/

theorem ends_reach : Ends (fun _ => True) Fault.NotText (t.reach p) := by
  rw [reach]
  split
  · exact trivial
  · split
    · exact trivial
    · cases t.walk _ p.parts with
      | ok place => exact trivial
      | error e => exact trivial

theorem ends_resolve : Ends (fun _ => True) Fault.NotText (t.resolve p) := by
  rw [resolve]
  split
  · exact trivial
  · exact trivial

theorem ends_entryAt {reached : Except Fault Place} (h : Ends (fun _ => True) Fault.NotText reached) :
    Ends (fun _ => True) Fault.NotText (t.entryAt reached) := by
  rw [entryAt]
  refine h.bind fun place _ => ?_
  cases t.get? place with
  | some entry => exact trivial
  | none => exact trivial

theorem ends_readAt {reached : Except Fault Place} (h : Ends (fun _ => True) Fault.NotText reached) :
    Ends (fun _ => True) Fault.NotText (t.readAt reached) := by
  rw [readAt]
  refine (t.ends_entryAt h).bind fun entry _ => ?_
  cases entry with
  | file content => exact trivial
  | directory => exact trivial

theorem ends_isDir : Ends (fun _ => True) Fault.NotText (t.isDir p) := by
  rw [isDir]
  split
  · exact trivial
  · exact trivial
  · exact trivial
  · exact trivial

theorem ends_usableName : Ends (fun _ => True) Fault.NotText (Charset.usableName encoding) := by
  cases encoding with
  | none => exact trivial
  | some name =>
    rw [Charset.usableName]
    split
    · exact trivial
    · exact trivial

theorem ends_choose (name : Text) : Ends (fun _ => True) Fault.NotText (Charset.choose name) := by
  rw [Charset.choose]
  cases Charset.ofName? name with
  | some charset => exact trivial
  | none => exact trivial

theorem ends_readText : Ends (fun _ => True) Fault.NotEncoding (t.readText p encoding) := by
  rw [readText]
  refine ((ends_usableName encoding).imp_error fun _ => Fault.NotText.notEncoding).bind fun name _ => ?_
  refine ((t.ends_readAt (t.ends_reach p)).imp_error fun _ => Fault.NotText.notEncoding).bind fun content _ => ?_
  refine ((ends_choose name).imp_error fun _ => Fault.NotText.notEncoding).bind fun charset _ => ?_
  cases charset.decode content with
  | ok text => exact trivial
  | error failure =>
    cases failure with
    | invalid e => exact trivial
    | noByteOrderMark => exact trivial

theorem ends_citedLines : Ends (fun _ => True) Failure.NotEncoding (t.citedLines encoding p) := by
  have hlines : Ends (fun _ => True) Fault.NotEncoding (t.readLines p encoding) :=
    (t.ends_readText p encoding).map fun _ _ => trivial
  refine hlines.mapError fun fault hfault => ?_
  cases fault with
  | os e => exact CitationError.notEncoding_failure _
  | decoding e => exact CitationError.notEncoding_failure _
  | encoding e => exact hfault.elim
  | _ => exact hfault.failure

/-! ### Changing things -/

theorem ends_makeDir : Ends (fun _ => True) Fault.NotText (t.makeDir p) := by
  rw [makeDir]
  refine (t.ends_reach p).bind fun place _ => ?_
  cases t.get? place with
  | some entry => exact trivial
  | none => exact trivial

theorem ends_acceptDir {fault : Fault} (h : fault.NotText) : Ends (fun _ => True) Fault.NotText (t.acceptDir p fault) := by
  rw [acceptDir.eq_def]
  split
  · exact trivial
  · exact h

theorem ends_makeAncestor (count : Nat) : Ends (fun _ => True) Fault.NotText (t.makeAncestor p count).2 := by
  induction count with
  | zero => exact trivial
  | succ count ih =>
    rw [makeAncestor]
    have hdir := t.ends_makeDir ⟨p.anchor, p.parts.take (count + 1)⟩
    split
    · exact trivial
    · split
      · next above fault habove =>
        rw [habove] at ih
        exact ih
      · next above habove =>
        have hagain := above.ends_makeDir ⟨p.anchor, p.parts.take (count + 1)⟩
        split
        · exact trivial
        · exact trivial
        · next fault _ hfault => exact above.ends_acceptDir _ (hagain.of_error hfault)
    · next fault _ hfault => exact t.ends_acceptDir _ (hdir.of_error hfault)

theorem ends_writeFile (content : Bytes) : Ends (fun _ => True) Fault.NotText (t.writeFile p content) := by
  rw [writeFile]
  refine (t.ends_reach p).bind fun place _ => ?_
  split
  · exact trivial
  · exact trivial

theorem ends_replaceFile (content : Bytes) : Ends (fun _ => True) Fault.NotText (t.replaceFile p content) := by
  rw [replaceFile]
  refine (t.ends_reach p).bind fun _ _ => ?_
  split
  · exact trivial
  · exact t.ends_writeFile p content

theorem ends_belowNewDirs {finish : Tree → Except Fault Tree}
    (h : ∀ above, Ends (fun _ => True) Fault.NotText (finish above)) :
    Ends (fun _ => True) Fault.NotText (t.belowNewDirs p finish).2 := by
  have hdirs := t.ends_makeAncestor p.parent p.parent.parts.length
  rw [belowNewDirs]
  split
  · next above fault habove => exact hdirs.of_error (congrArg Prod.snd habove)
  · next above _ =>
    split
    · exact trivial
    · next fault hfault => exact (h above).of_error hfault

def refusesCopy (source : Except Fault Place) (p : Path) : Bool := (source matches .error .nullInPath) || p.hasNull

theorem copyInto_eq (source : Except Fault Place) :
    t.copyInto source p =
      if refusesCopy source p then .error .nullInPath
      else if t.isSame source (t.reach p) then .error .sameFile
      else t.readAt source >>= fun content => t.writeFile p content := rfl

theorem ends_copyFile (source : Path) : Ends (fun _ => True) Fault.NotText (t.copyFile source p).2 := by
  refine t.ends_belowNewDirs p fun above => ?_
  rw [copyInto_eq]
  split
  · exact trivial
  · split
    · exact trivial
    · exact (above.ends_readAt (above.ends_reach source)).bind fun content _ => above.ends_writeFile p content

theorem forall_mem_textOfLines {P : Char → Prop} {lines : List Text} (hbreak : P '\n') (h : ∀ line ∈ lines, ∀ c ∈ line, P c) :
    ∀ c ∈ textOfLines lines, P c := by
  rw [textOfLines]
  split
  · simp
  · intro c hc
    rcases List.mem_append.1 hc with hc | hc
    · exact Text.forall_mem_join hbreak h c hc
    · exact List.mem_singleton.1 hc ▸ hbreak

/-- Writing lines does not fail in the charset that has all their characters. -/
theorem ends_writeLines {charset : Charset} {lines : List Text} (hnamed : Charset.NamedBy encoding charset)
    (h : ∀ line ∈ lines, ∀ c ∈ line, charset.has c = true) :
    Ends (fun _ => True) Fault.NotText (t.writeLines p lines encoding).2 := by
  obtain ⟨name, hname, hchoose⟩ := hnamed
  have hhas : ∀ c ∈ textOfLines lines, charset.has c = true := forall_mem_textOfLines (charset.has_of_lt (by decide)) h
  obtain ⟨content, hcontent⟩ := Charset.exists_encode_of_has hhas
  refine t.ends_belowNewDirs p fun above => ?_
  rw [writeText]
  refine (above.ends_reach _).bind fun _ _ => ?_
  simp only [hname, hchoose, bind, Except.bind, hcontent]
  exact above.ends_replaceFile p content

end Tree

end Quotation
