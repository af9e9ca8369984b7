import Quotation.Charset.Basic
import Quotation.Text.Quoted

/-!
# ASCII and Latin-1

One byte per character, by code point. Every byte is a Latin-1 character; only the lower half are ASCII.
-/

namespace Quotation.Charset.Narrow

def has (charset : Narrow) (c : Char) : Bool := c.toNat < charset.size

def missing? (charset : Narrow) (t : Text) : Option EncodeError :=
  let known := t.takeWhile charset.has
  match t.dropWhile charset.has with
  | [] => none
  | first :: rest => some ⟨charset, known.length, first, 1 + (rest.takeWhile fun c => !charset.has c).length⟩

def encode (charset : Narrow) (t : Text) : Except EncodeError Bytes :=
  match charset.missing? t with
  | some e => .error e
  | none => .ok (t.map fun c => UInt8.ofNat c.toNat)

def decodeLatin1 (bytes : Bytes) : Text := bytes.map fun b => Char.ofNat b.toNat

/-- Fails at the first byte of the upper half. -/
def decodeAscii (bytes : Bytes) : Except DecodeError Text :=
  match bytes.dropWhile (·.toNat < 0x80) with
  | [] => .ok (decodeLatin1 bytes)
  | byte :: _ => .error ⟨.ascii, (bytes.takeWhile (·.toNat < 0x80)).length, [byte], .notAscii⟩

theorem encode_eq_ok_iff (charset : Narrow) (t : Text) :
    (∃ bytes, encode charset t = .ok bytes) ↔ ∀ c ∈ t, charset.has c = true := by
  have missing : charset.missing? t = none ↔ ∀ c ∈ t, charset.has c = true := by
    simp only [missing?]
    induction t with
    | nil => simp
    | cons c cs ih =>
      by_cases hc : charset.has c = true
      · simp only [List.dropWhile_cons_of_pos hc, List.mem_cons, forall_eq_or_imp, hc, true_and, ← ih]
        cases cs.dropWhile charset.has <;> simp
      · simp [List.dropWhile_cons_of_neg hc, hc]
  rw [← missing, encode]
  cases charset.missing? t <;> simp

end Narrow

/-- A single character is shown, several are told by the positions of the first and the last. -/
def EncodeError.message (e : EncodeError) : String :=
  let place :=
    if e.count = 1 then s!"character '{String.ofList (Text.codePoint e.first)}' in position {e.position}"
    else s!"characters in position {e.position}-{e.position + e.count - 1}"
  s!"'{e.charset.name}' codec can't encode {place}: ordinal not in range({e.charset.size})"

end Quotation.Charset
