import Quotation.CitationError

/-!
# Excerpts

What a citation quotes from the lines of the cited file. Line numbers outside the file are errors at either end of a range. A pattern leads to the text that follows it on the first line that contains it; with nothing but blanks there, the pattern works as a fence, and the lines up to the next one that contains it are quoted.
-/

namespace Quotation.Excerpt

/-- The line of the given number, counted from one. -/
def lineAt (target : Text) (lines : List Text) (number : Int) : Except CitationError Text :=
  if number < 1 then .error (.lineOutOfRange target number lines.length)
  else match lines[number.toNat - 1]? with
    | some line => .ok line
    | none => .error (.lineOutOfRange target number lines.length)

def ofRange (target : Text) (lines : List Text) (first last : Int) : Except CitationError Text := do
  if last < first then throw (.invalidRange target first last)
  let _ ← lineAt target lines first
  let _ ← lineAt target lines last
  return Text.join '\n' ((lines.take last.toNat).drop (first.toNat - 1))

def ofPattern (target wanted : Text) : List Text → Except CitationError Text
  | [] => .error (.patternNotFound target wanted)
  | line :: rest =>
    match Text.after? wanted line with
    | none => ofPattern target wanted rest
    | some payload =>
      if Text.allBlank payload then .ok (Text.join '\n' (rest.takeWhile fun next => !Text.contains wanted next))
      else .ok (Text.trimLeft payload)

/-- The passage that a citation quotes from the lines of the cited file. -/
def extract (lines : List Text) (c : Citation) : Except CitationError Text :=
  match c.passage with
  | .whole => .ok (Text.join '\n' lines)
  | .line number => lineAt c.ref lines number
  | .range first last => ofRange c.ref lines first last
  | .pattern wanted => ofPattern c.ref wanted lines

end Quotation.Excerpt
