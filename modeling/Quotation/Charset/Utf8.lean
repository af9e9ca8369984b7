import Quotation.Charset.Basic

/-!
# UTF-8

A character takes one to four bytes. Decoding stops at the first byte that cannot continue a character: a first byte that starts none, a later byte out of the range that the bytes before it allow, or the end of the data inside a character. The error covers the bytes of the unfinished character.
-/

namespace Quotation.Charset.Utf8

/-- The low six bits of a later byte, under its two mark bits. -/
def continuation (n : Nat) : UInt8 := UInt8.ofNat (0x80 + n % 0x40)

def encodeChar (c : Char) : Bytes :=
  let n := c.toNat
  if n < 0x80 then [UInt8.ofNat n]
  else if n < 0x800 then [UInt8.ofNat (0xC0 + n / 0x40), continuation n]
  else if n < 0x10000 then [UInt8.ofNat (0xE0 + n / 0x1000), continuation (n / 0x40), continuation n]
  else [UInt8.ofNat (0xF0 + n / 0x40000), continuation (n / 0x1000), continuation (n / 0x40), continuation n]

def encode (t : Text) : Bytes := t.flatMap encodeChar

def isContinuation (n : Nat) : Bool := 0x80 ≤ n && n < 0xC0

/-- Whether `n` may follow the first byte `lead`: overlong forms, surrogates and numbers past the last character are ruled out here. -/
def isSecond (lead n : Nat) : Bool :=
  isContinuation n && (lead != 0xE0 || 0xA0 ≤ n) && (lead != 0xED || n < 0xA0) && (lead != 0xF0 || 0x90 ≤ n) &&
    (lead != 0xF4 || n < 0x90)

def decodeFrom (position : Nat) : Bytes → Except DecodeError Text
  | [] => .ok []
  | a :: rest =>
    if a.toNat < 0x80 then
      (decodeFrom (position + 1) rest).map (Char.ofNat a.toNat :: ·)
    else if a.toNat < 0xC2 || 0xF4 < a.toNat then
      .error ⟨.utf8, position, [a], .invalidStart⟩
    else match rest with
      | [] => .error ⟨.utf8, position, [a], .unexpectedEnd⟩
      | b :: rest =>
        if !isSecond a.toNat b.toNat then
          .error ⟨.utf8, position, [a], .invalidContinuation⟩
        else if a.toNat < 0xE0 then
          (decodeFrom (position + 2) rest).map (Char.ofNat (a.toNat % 0x20 * 0x40 + b.toNat % 0x40) :: ·)
        else match rest with
          | [] => .error ⟨.utf8, position, [a, b], .unexpectedEnd⟩
          | c :: rest =>
            if !isContinuation c.toNat then
              .error ⟨.utf8, position, [a, b], .invalidContinuation⟩
            else if a.toNat < 0xF0 then
              (decodeFrom (position + 3) rest).map
                (Char.ofNat (a.toNat % 0x10 * 0x1000 + b.toNat % 0x40 * 0x40 + c.toNat % 0x40) :: ·)
            else match rest with
              | [] => .error ⟨.utf8, position, [a, b, c], .unexpectedEnd⟩
              | d :: rest =>
                if !isContinuation d.toNat then
                  .error ⟨.utf8, position, [a, b, c], .invalidContinuation⟩
                else
                  (decodeFrom (position + 4) rest).map
                    (Char.ofNat (a.toNat % 0x08 * 0x40000 + b.toNat % 0x40 * 0x1000 + c.toNat % 0x40 * 0x40 +
                      d.toNat % 0x40) :: ·)

def decode (bytes : Bytes) : Except DecodeError Text := decodeFrom 0 bytes

def mark : Bytes := [0xEF, 0xBB, 0xBF]

/-- Decodes what follows the byte order mark, if there is one; a file that ends inside the mark is empty. Positions count from behind the mark. -/
def decodeMarked (bytes : Bytes) : Except DecodeError Text :=
  if bytes.isPrefixOf mark then .ok []
  else if mark.isPrefixOf bytes then decode (bytes.drop mark.length)
  else decode bytes

/-- The number of bytes that a text takes. -/
def size : Text → Nat
  | [] => 0
  | c :: cs => c.utf8Size + size cs

end Quotation.Charset.Utf8
