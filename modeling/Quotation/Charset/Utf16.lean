import Quotation.Charset.Basic

/-!
# UTF-16

A character takes one unit of two bytes or, beyond the basic plane, a high and a low surrogate. The order of the two bytes is told by the byte order mark at the start of a file. Text without a mark is read in little-endian order to report its errors and is refused even if it has none.
-/

namespace Quotation.Charset.Utf16

def isHigh (unit : Nat) : Bool := 0xD800 ≤ unit && unit < 0xDC00

def isLow (unit : Nat) : Bool := 0xDC00 ≤ unit && unit < 0xE000

def unitBytes (unit : Nat) : Bytes := [UInt8.ofNat (unit % 0x100), UInt8.ofNat (unit / 0x100)]

def encodeChar (c : Char) : Bytes :=
  let n := c.toNat
  if n < 0x10000 then unitBytes n
  else unitBytes (0xD800 + (n - 0x10000) / 0x400) ++ unitBytes (0xDC00 + (n - 0x10000) % 0x400)

/-- The byte order mark of the order that is written. -/
def mark : Bytes := [0xFF, 0xFE]

def encode (t : Text) : Bytes := mark ++ t.flatMap encodeChar

inductive Order where
  | little
  | big
  deriving DecidableEq, Repr

def Order.code : Order → Code
  | .little => .utf16Little
  | .big => .utf16Big

def Order.unit : Order → UInt8 → UInt8 → Nat
  | .little, a, b => b.toNat * 0x100 + a.toNat
  | .big, a, b => a.toNat * 0x100 + b.toNat

def decodeFrom (order : Order) (position : Nat) : Bytes → Except DecodeError Text
  | [] => .ok []
  | [a] => .error ⟨order.code, position, [a], .truncated⟩
  | a :: b :: rest =>
    let unit := order.unit a b
    if isLow unit then .error ⟨order.code, position, [a, b], .unpairedLow⟩
    else if isHigh unit then
      match rest with
      | c :: d :: rest =>
        let next := order.unit c d
        if isLow next then
          (decodeFrom order (position + 4) rest).map
            (Char.ofNat (0x10000 + (unit - 0xD800) * 0x400 + (next - 0xDC00)) :: ·)
        else .error ⟨order.code, position, [a, b], .unpairedHigh⟩
      | rest => .error ⟨order.code, position, a :: b :: rest, .unexpectedEnd⟩
    else (decodeFrom order (position + 2) rest).map (Char.ofNat unit :: ·)

def decode : Bytes → Except DecodeFailure Text
  | 0xFF :: 0xFE :: rest => (decodeFrom .little 2 rest).mapError .invalid
  | 0xFE :: 0xFF :: rest => (decodeFrom .big 2 rest).mapError .invalid
  | bytes =>
    match decodeFrom .little 0 bytes with
    | .error e => .error (.invalid e)
    | .ok t => if bytes.isEmpty then .ok t else .error .noByteOrderMark

end Quotation.Charset.Utf16
