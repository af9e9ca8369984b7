import Quotation.Charset.Basic

/-!
# Names of charsets

A charset has many names. They are told apart by their letters and digits only, in either case: every other run of characters counts as one underscore, and none at the ends. A full stop is kept, for the few names that have one, and else stands for an underscore.
-/

namespace Quotation.Charset

def isNameChar (c : Char) : Bool := c.isAlphanum || c = '.'

/-- The name in lower case, with one underscore for each inner run of other characters; `pending` says that such a run stands between what has been written and what follows. -/
def plainName (started pending : Bool) : Text → Text
  | [] => []
  | c :: cs =>
    if isNameChar c then
      if pending && started then '_' :: c.toLower :: plainName true false cs else c.toLower :: plainName true false cs
    else plainName started true cs

def named? (name : String) : Option Charset :=
  if name ∈ ["u8", "utf", "utf8", "utf8_ucs2", "utf8_ucs4", "cp65001"] then some .utf8
  else if name ∈ ["u16", "utf16"] then some .utf16
  else if name ∈ ["646", "ansi_x3.4_1968", "ansi_x3_4_1968", "ansi_x3.4_1986", "cp367", "csascii", "ibm367", "iso646_us",
      "iso_646.irv_1991", "iso_ir_6", "us", "us_ascii"] then some .ascii
  else if name ∈ ["8859", "cp819", "csisolatin1", "ibm819", "iso8859", "iso8859_1", "iso_8859_1", "iso_8859_1_1987",
      "iso_ir_100", "l1", "latin", "latin1"] then some .latin1
  else none

/-- The name that a charset is filed under. -/
def filedName : Charset → String
  | .utf8 => "utf_8"
  | .utf8Marked => "utf_8_sig"
  | .utf16 => "utf_16"
  | .ascii => "ascii"
  | .latin1 => "latin_1"

/-- The charset of a name: one of its other names, with full stops or underscores in their place, or the name it is filed under. -/
def ofName? (name : Text) : Option Charset :=
  let plain := plainName false false name
  let underscored := plain.map fun c => if c = '.' then '_' else c
  named? (String.ofList plain) <|> named? (String.ofList underscored) <|>
    [utf8, utf8Marked, utf16, ascii, latin1].find? fun charset => charset.filedName = String.ofList plain

end Quotation.Charset
