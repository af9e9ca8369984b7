import Quotation.Charset.Utf8
import Quotation.Charset.Utf16
import Quotation.Charset.Narrow
import Quotation.Charset.Name

/-!
# Reading and writing in a charset

Decoding and encoding for every charset.
-/

namespace Quotation.Charset

def decode : Charset → Bytes → Except DecodeFailure Text
  | .utf8, bytes => (Utf8.decode bytes).mapError .invalid
  | .utf8Marked, bytes => (Utf8.decodeMarked bytes).mapError .invalid
  | .utf16, bytes => Utf16.decode bytes
  | .ascii, bytes => (Narrow.decodeAscii bytes).mapError .invalid
  | .latin1, bytes => .ok (Narrow.decodeLatin1 bytes)

def encode : Charset → Text → Except EncodeError Bytes
  | .utf8, t => .ok (Utf8.encode t)
  | .utf8Marked, t => .ok (Utf8.mark ++ Utf8.encode t)
  | .utf16, t => .ok (Utf16.encode t)
  | .ascii, t => Narrow.ascii.encode t
  | .latin1, t => Narrow.latin1.encode t

end Quotation.Charset
