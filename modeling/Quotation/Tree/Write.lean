import Quotation.Tree.Walk

/-!
# Writing

Operations that change a tree. Each returns the tree it leaves behind together with how it ended. The directories above a new file are made first and stay even if a later step fails; a file is either written completely or not touched.
-/

namespace Quotation.Tree

def makeDir (t : Tree) (p : Path) : Except Fault Tree := do
  let place ← t.reach p
  match t.get? place with
  | some _ => throw (.os .exists)
  | none => return t.insert place .directory

/-- The outcome of not being able to make a directory: all is well if there is one already. -/
def acceptDir (t : Tree) (p : Path) (fault : Fault) : Except Fault Unit :=
  match fault, t.isDir p with
  | .os _, .ok true => .ok ()
  | fault, _ => .error fault

/-- Makes the directory that the first `count` names of a path lead to, and first the ones above it if they are missing. -/
def makeAncestor (t : Tree) (p : Path) : Nat → Tree × Except Fault Unit
  | 0 => (t, .ok ())
  | count + 1 =>
    let dir : Path := ⟨p.anchor, p.parts.take (count + 1)⟩
    match t.makeDir dir with
    | .ok made => (made, .ok ())
    | .error (.os .notFound) =>
      match makeAncestor t p count with
      | (above, .error fault) => (above, .error fault)
      | (above, .ok ()) =>
        match above.makeDir dir with
        | .ok made => (made, .ok ())
        | .error (.os .notFound) => (above, .error (.os .notFound))
        | .error fault => (above, above.acceptDir dir fault)
    | .error fault => (t, t.acceptDir dir fault)

/-- Makes a directory and the ones above it, as far as they are missing. -/
def makeDirs (t : Tree) (p : Path) : Tree × Except Fault Unit := t.makeAncestor p p.parts.length

def writeFile (t : Tree) (p : Path) (content : Bytes) : Except Fault Tree := do
  let place ← t.reach p
  match t.get? place with
  | some .directory => throw (.os .isDirectory)
  | _ => return t.insert place (.file content)

/-- What a temporary file beside one called `name` is called; the system chooses the end. -/
def temporaryName (name suffix : Text) : Text := '.' :: name ++ '.' :: suffix

/-- The path of a temporary file for new content of `p`. -/
def temporaryNamed (t : Tree) (p : Path) (suffix : Text) : Path :=
  Path.ofPlace (p.parent.normalize t.cwd ++ [temporaryName p.name suffix])

/-- The path of the temporary file that new content for `p` goes to first. Its name is ten bytes longer than that of `p`. -/
def temporary (t : Tree) (p : Path) : Path := t.temporaryNamed p (List.replicate 8 '_')

/-- Moves new content from its temporary file to its place; a path without a last name of its own cannot be replaced. -/
def replaceFile (t : Tree) (p : Path) (content : Bytes) : Except Fault Tree := do
  let _ ← t.reach p
  if p.parts.isEmpty || p.name = Path.up then throw (.os .busy)
  t.writeFile p content

def textOfLines (lines : List Text) : Text := if lines.isEmpty then [] else Text.join '\n' lines ++ ['\n']

/-- Writes a text file in a directory that is there: encodes the text, then puts it in place in one step. -/
def writeText (t : Tree) (p : Path) (text : Text) (encoding : Option Text) : Except Fault Tree := do
  let _ ← t.reach (t.temporary p)
  let charset ← Charset.choose (← Charset.usableName encoding)
  match charset.encode text with
  | .error e => throw (.encoding e)
  | .ok content => t.replaceFile p content

/-- Makes the directories above a path as needed and goes on in the tree that has them. -/
def belowNewDirs (t : Tree) (p : Path) (finish : Tree → Except Fault Tree) : Tree × Except Fault Unit :=
  match t.makeDirs p.parent with
  | (above, .error fault) => (above, .error fault)
  | (above, .ok ()) =>
    match finish above with
    | .ok after => (after, .ok ())
    | .error fault => (above, .error fault)

def putFile (t : Tree) (p : Path) (content : Bytes) : Tree × Except Fault Unit :=
  t.belowNewDirs p fun above => above.writeFile p content

def writeLines (t : Tree) (p : Path) (lines : List Text) (encoding : Option Text) : Tree × Except Fault Unit :=
  t.belowNewDirs p fun above => above.writeText p (textOfLines lines) encoding

/-! ### Copying -/

/-- Whether two paths were found to lead to the same place, where something stands. -/
def isSame (t : Tree) : Except Fault Place → Except Fault Place → Bool
  | .ok a, .ok b => a = b && (t.get? a).isSome
  | _, _ => false

/-- Copies a file in a directory that is there, byte for byte; `source` is where the path of the file leads. -/
def copyInto (t : Tree) (source : Except Fault Place) (dest : Path) : Except Fault Tree := do
  if source matches .error .nullInPath || dest.hasNull then throw .nullInPath
  if t.isSame source (t.reach dest) then throw .sameFile
  let content ← t.readAt source
  t.writeFile dest content

def copyFile (t : Tree) (source dest : Path) : Tree × Except Fault Unit :=
  t.belowNewDirs dest fun above => above.copyInto (above.reach source) dest

/-- Copies the file that a path leads to as it was written. -/
def copyWritten (t : Tree) (source : Text) (dest : Path) : Tree × Except Fault Unit :=
  t.belowNewDirs dest fun above => above.copyInto (above.reachWritten source) dest

/-! ### Removing -/

def remove (t : Tree) (p : Path) : Except Fault Tree := do
  let _ ← t.entry p
  return t.erase (← t.reach p)

end Quotation.Tree
