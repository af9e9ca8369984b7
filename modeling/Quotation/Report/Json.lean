import Quotation.Text.Hex

/-!
# JSON values

The values that reports are made of, and their text over several lines: two more spaces of margin per level, one member to a line, and ASCII characters only, with a pair of surrogate escapes for a character beyond the basic plane.
-/

namespace Quotation

inductive Json where
  | null
  | bool (b : Bool)
  | int (n : Int)
  | str (t : Text)
  | list (items : List Json)
  /-- Members in the order in which they are written. -/
  | object (members : List (String × Json))

namespace Json

def ofString (s : String) : Json := .str s.toList

def unitEscape (unit : Nat) : Text := '\\' :: 'u' :: Text.hex 4 unit

def charText (c : Char) : Text :=
  if c = '"' then ['\\', '"']
  else if c = '\\' then ['\\', '\\']
  else if c = '\n' then ['\\', 'n']
  else if c = '\r' then ['\\', 'r']
  else if c = '\t' then ['\\', 't']
  else if c = '\x08' then ['\\', 'b']
  else if c = '\x0c' then ['\\', 'f']
  else if 0x20 ≤ c.toNat ∧ c.toNat < 0x7F then [c]
  else if c.toNat < 0x10000 then unitEscape c.toNat
  else unitEscape (0xD800 + (c.toNat - 0x10000) / 0x400) ++ unitEscape (0xDC00 + (c.toNat - 0x10000) % 0x400)

def quotedText (t : Text) : Text := '"' :: t.flatMap charText ++ ['"']

def newLine (depth : Nat) : Text := '\n' :: List.replicate (2 * depth) ' '

/-- Members between brackets, each on a line of its own. -/
def enclose (opening closing : Char) (depth : Nat) : List Text → Text
  | [] => [opening, closing]
  | first :: rest =>
    opening :: newLine (depth + 1) ++ first ++ rest.flatMap (fun next => ',' :: newLine (depth + 1) ++ next) ++
      newLine depth ++ [closing]

mutual

def render (depth : Nat) : Json → Text
  | .null => "null".toList
  | .bool b => (if b then "true" else "false").toList
  | .int n => Text.ofInt n
  | .str t => quotedText t
  | .list items => enclose '[' ']' depth (renderItems (depth + 1) items)
  | .object members => enclose '\x7b' '\x7d' depth (renderMembers (depth + 1) members)

def renderItems (depth : Nat) : List Json → List Text
  | [] => []
  | item :: rest => render depth item :: renderItems depth rest

def renderMembers (depth : Nat) : List (String × Json) → List Text
  | [] => []
  | (key, value) :: rest => (quotedText key.toList ++ ": ".toList ++ render depth value) :: renderMembers depth rest

end

def toText (value : Json) : Text := render 0 value

end Json

end Quotation
