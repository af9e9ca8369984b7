import Quotation.Charset.Codec
import Quotation.Fault

/-!
# Choosing a charset

The charset that text is read or written in is given by name. Whether the name can be one at all is found out before a file is opened, and whether it stands for a charset after that.
-/

namespace Quotation.Charset

/-- The name under which a charset is looked up: one has to be given, and no name holds the null character. -/
def usableName : Option Text → Except Fault Text
  | none => .error .noValue
  | some name => if '\x00' ∈ name then .error .nullInCharset else .ok name

def choose (name : Text) : Except Fault Charset :=
  match ofName? name with
  | some charset => .ok charset
  | none => .error (.unknownCharset name)

end Quotation.Charset
