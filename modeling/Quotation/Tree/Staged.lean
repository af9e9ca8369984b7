import Quotation.Tree.Write

/-!
# Writing in stages

`Tree.writeLines` puts a file in its place in one step. The system takes several: it makes an empty file beside the destination under a name that is not taken, encodes the text into it and moves it to the destination; where any of this fails, the temporary file is taken away again.
-/

namespace Quotation.Tree

/-- What the end of a temporary name is made up from. -/
def suffixCharacters : List Char := "abcdefghijklmnopqrstuvwxyz0123456789_".toList

def IsSuffix (suffix : Text) : Prop := suffix.length = 8 ∧ ∀ c ∈ suffix, c ∈ suffixCharacters

/-- Makes an empty file where there is nothing yet. -/
def makeFile (t : Tree) (p : Path) : Except Fault (Place × Tree) := do
  let place ← t.reach p
  match t.get? place with
  | some _ => throw (.os .exists)
  | none => return (place, t.insert place (.file []))

/-- Moves a file over what stands where a path leads. -/
def moveFile (t : Tree) (origin : Place) (p : Path) : Except Fault Tree := do
  let place ← t.reach p
  if p.parts.isEmpty || p.name = Path.up then throw (.os .busy)
  match t.get? origin, t.get? place with
  | some (.file _), some .directory => throw (.os .isDirectory)
  | some (.file content), _ => return (t.erase origin).insert place (.file content)
  | _, _ => throw (.os .notFound)

/-- The bytes of a text in the charset that a setting names. -/
def encoded (text : Text) (encoding : Option Text) : Except Fault Bytes := do
  let charset ← Charset.choose (← Charset.usableName encoding)
  (charset.encode text).mapError .encoding

/-- Fills the temporary file that was made and moves it to its destination, or takes it away. -/
def finishStaged (made : Tree) (temporary : Place) (p : Path) (text : Text) (encoding : Option Text) : Tree × Except Fault Unit :=
  match encoded text encoding with
  | .error fault => (made.erase temporary, .error fault)
  | .ok content =>
    let filled := made.insert temporary (.file content)
    match filled.moveFile temporary p with
    | .ok after => (after, .ok ())
    | .error fault => (filled.erase temporary, .error fault)

/-- Writes lines by way of a temporary file whose name ends in `suffix`. -/
def writeLinesStaged (t : Tree) (suffix : Text) (p : Path) (lines : List Text) (encoding : Option Text) :
    Tree × Except Fault Unit :=
  match t.makeDirs p.parent with
  | (above, .error fault) => (above, .error fault)
  | (above, .ok ()) =>
    match above.makeFile (above.temporaryNamed p suffix) with
    | .error fault => (above, .error fault)
    | .ok (temporary, made) => made.finishStaged temporary p (textOfLines lines) encoding

end Quotation.Tree
