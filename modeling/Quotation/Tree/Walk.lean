import Quotation.Tree.Basic
import Quotation.Charset.Choice
import Quotation.Text.Line

/-!
# Looking things up by path

The operating system walks a path name by name from the root or the working directory. Every step needs a directory to stand in, which has to exist even if the next step goes up again, and names and paths may not be too long. A path that is given as it was written says more than a `Path`: a slash or a single dot at its end asks for a directory there. Where the walk succeeds it ends at the place that the names alone tell (`walk_eq_foldl`).
-/

namespace Quotation

/-- The most bytes that a name may take. -/
def nameLimit : Nat := 255

/-- The most bytes that a path may take. -/
def pathLimit : Nat := 4095

namespace Tree

/-- Walks on from a place by a list of names; the last one need not exist. -/
def walk (t : Tree) : Place → List Text → Except OsError Place
  | place, [] => .ok place
  | place, part :: parts =>
    match t.get? place with
    | none => .error .notFound
    | some (.file _) => .error .notDirectory
    | some .directory =>
      if part = Path.up then walk t place.dropLast parts
      else if part = Path.stay then walk t place parts
      else if nameLimit < Charset.Utf8.size part then .error .nameTooLong
      else walk t (place ++ [part]) parts

/-- The place where a path leads. -/
def reach (t : Tree) (p : Path) : Except Fault Place :=
  if p.hasNull then .error .nullInPath
  else if pathLimit < Charset.Utf8.size p.toText then .error (.os .nameTooLong)
  else (t.walk (match p.anchor with | .here => t.cwd | _ => []) p.parts).mapError .os

/-- The names of a path as it was written, with a dot after a slash at its end. -/
def writtenNames (written : Text) : List Text :=
  (Text.splitOn '/' written).filter (· ≠ []) ++ if written.getLast? = some '/' then [Path.stay] else []

/-- The place where a path leads as it was written; an empty one leads nowhere. -/
def reachWritten (t : Tree) (written : Text) : Except Fault Place :=
  if '\x00' ∈ written then .error .nullInPath
  else if written.isEmpty then .error (.os .notFound)
  else if pathLimit < Charset.Utf8.size written then .error (.os .nameTooLong)
  else (t.walk (if written.head? = some '/' then [] else t.cwd) (writtenNames written)).mapError .os

/-- What stands at the place that a path was found to lead to. -/
def entryAt (t : Tree) (reached : Except Fault Place) : Except Fault Entry := do
  match t.get? (← reached) with
  | some entry => return entry
  | none => throw (.os .notFound)

def entry (t : Tree) (p : Path) : Except Fault Entry := t.entryAt (t.reach p)

def isFile (t : Tree) (p : Path) : Bool :=
  match t.entry p with
  | .ok (.file _) => true
  | _ => false

/-- Whether the path leads to a directory. A path that is too long is an error; any other path that leads nowhere is none. -/
def isDir (t : Tree) (p : Path) : Except Fault Bool :=
  match t.entry p with
  | .ok .directory => .ok true
  | .ok (.file _) => .ok false
  | .error (.os .nameTooLong) => .error (.os .nameTooLong)
  | .error _ => .ok false

/-- The place that a path names, whether anything is there or not. -/
def resolve (t : Tree) (p : Path) : Except Fault Place :=
  if p.hasNull then .error .nullInPath else .ok (p.normalize t.cwd)

def readAt (t : Tree) (reached : Except Fault Place) : Except Fault Bytes := do
  match ← t.entryAt reached with
  | .file content => return content
  | .directory => throw (.os .isDirectory)

def read (t : Tree) (p : Path) : Except Fault Bytes := t.readAt (t.reach p)

/-- The text of a file. The name of the charset is looked at before the file, and what it stands for after it. -/
def readText (t : Tree) (p : Path) (encoding : Option Text) : Except Fault Text := do
  let name ← Charset.usableName encoding
  let content ← t.read p
  let charset ← Charset.choose name
  match charset.decode content with
  | .ok text => return text
  | .error (.invalid e) => throw (.decoding e)
  | .error .noByteOrderMark => throw .noByteOrderMark

def readLines (t : Tree) (p : Path) (encoding : Option Text) : Except Fault (List Text) :=
  (t.readText p encoding).map fun text => Text.lines (Text.unifyBreaks text)

theorem walk_eq_foldl (t : Tree) (place reached : Place) (parts : List Text) (h : t.walk place parts = .ok reached) :
    reached = parts.foldl Path.step place := by
  induction parts generalizing place with
  | nil => simpa [walk] using h.symm
  | cons part parts ih =>
    rw [walk] at h
    split at h
    · cases h
    · cases h
    · by_cases hup : part = Path.up
      · rw [if_pos hup] at h
        simpa [Path.step, hup] using ih _ h
      · by_cases hstay : part = Path.stay
        · rw [if_neg hup, if_pos hstay] at h
          have hstep : Path.step place part = place := by rw [Path.step, if_neg hup, if_pos hstay]
          simpa [hstep] using ih _ h
        · rw [if_neg hup, if_neg hstay] at h
          split at h
          · cases h
          · simpa [Path.step, hup, hstay] using ih _ h

end Tree

end Quotation
