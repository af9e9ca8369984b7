import Quotation.Text.Hex

/-!
# Charsets and their errors

The charsets a text file may be stored in, and what can be said about bytes or characters that have no counterpart. A decoding error names the offending bytes by position, an encoding error the first run of characters that the charset lacks.
-/

namespace Quotation

abbrev Bytes := List UInt8

/-- The way a text file stores its characters. -/
inductive Charset where
  | utf8
  /-- UTF-8 with a byte order mark, which reading skips and writing puts in front. -/
  | utf8Marked
  /-- UTF-16 in the order that a byte order mark tells, written in little-endian order. -/
  | utf16
  | ascii
  | latin1
  deriving DecidableEq, Repr

namespace Charset

/-- The code that a decoder was reading when it failed. -/
inductive Code where
  | utf8
  | utf16Little
  | utf16Big
  | ascii
  deriving DecidableEq, Repr

def Code.name : Code → String
  | .utf8 => "utf-8"
  | .utf16Little => "utf-16-le"
  | .utf16Big => "utf-16-be"
  | .ascii => "ascii"

inductive Flaw where
  | invalidStart
  | invalidContinuation
  | unexpectedEnd
  | truncated
  | unpairedHigh
  | unpairedLow
  | notAscii
  deriving DecidableEq, Repr

def Flaw.words : Flaw → String
  | .invalidStart => "invalid start byte"
  | .invalidContinuation => "invalid continuation byte"
  | .unexpectedEnd => "unexpected end of data"
  | .truncated => "truncated data"
  | .unpairedHigh => "illegal UTF-16 surrogate"
  | .unpairedLow => "illegal encoding"
  | .notAscii => "ordinal not in range(128)"

/-- The bytes at `position` do not decode. -/
structure DecodeError where
  code : Code
  position : Nat
  bytes : Bytes
  flaw : Flaw
  deriving DecidableEq, Repr

/-- A single offending byte is shown, several are told by the positions of the first and the last. -/
def DecodeError.message (e : DecodeError) : String :=
  let place := match e.bytes with
    | [byte] => s!"byte 0x{String.ofList (Text.hex 2 byte.toNat)} in position {e.position}"
    | bytes => s!"bytes in position {e.position}-{e.position + bytes.length - 1}"
  s!"'{e.code.name}' codec can't decode {place}: {e.flaw.words}"

inductive DecodeFailure where
  | invalid (e : DecodeError)
  /-- UTF-16 text that does not say its byte order. -/
  | noByteOrderMark
  deriving DecidableEq, Repr

/-- The charsets that lack most characters, by the number of those they have. -/
inductive Narrow where
  | ascii
  | latin1
  deriving DecidableEq, Repr

def Narrow.size : Narrow → Nat
  | .ascii => 128
  | .latin1 => 256

def Narrow.name : Narrow → String
  | .ascii => "ascii"
  | .latin1 => "latin-1"

/-- The charset lacks the `count` characters from `position` on, the first of which is `first`. -/
structure EncodeError where
  charset : Narrow
  position : Nat
  first : Char
  count : Nat
  deriving DecidableEq, Repr

end Charset

end Quotation
