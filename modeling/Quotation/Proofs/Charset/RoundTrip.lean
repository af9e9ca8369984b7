import Mathlib.Data.List.TakeWhile
import Quotation.Charset.Codec

/-!
# Text survives a file

What a charset encodes it decodes to the same text (`decode_of_encode`), and it encodes every text whose characters it has (`exists_encode_of_has`). Decoding gives no others (`has_of_decode`), so what has been read can be written again in the same charset.
-/

namespace Quotation.Charset

theorem isScalar (c : Char) : c.toNat < 0xD800 ∨ 0xE000 ≤ c.toNat ∧ c.toNat < 0x110000 := by
  have hvalid := c.valid
  change c.toNat < 0xD800 ∨ 0xDFFF < c.toNat ∧ c.toNat < 0x110000 at hvalid
  omega

theorem toNat_byte {n : Nat} (h : n < 0x100) : (UInt8.ofNat n).toNat = n := UInt8.toNat_ofNat_of_lt (by change n < 2 ^ 8; omega)

/-! ### UTF-8 -/

namespace Utf8

variable (position : Nat) {n : Nat} (rest : Bytes)

theorem toNat_continuation (n : Nat) : (continuation n).toNat = 0x80 + n % 0x40 := toNat_byte (by omega)

theorem isContinuation_continuation (n : Nat) : isContinuation (0x80 + n % 0x40) = true := by
  simp [isContinuation]
  omega

theorem decodeFrom_one (h : n < 0x80) :
    decodeFrom position (UInt8.ofNat n :: rest) = (decodeFrom (position + 1) rest).map (Char.ofNat n :: ·) := by
  have hbyte : (UInt8.ofNat n).toNat = n := toNat_byte (by omega)
  rw [decodeFrom.eq_def]
  dsimp only
  rw [hbyte, if_pos h]

theorem decodeFrom_two (hlow : 0x80 ≤ n) (hhigh : n < 0x800) :
    decodeFrom position (UInt8.ofNat (0xC0 + n / 0x40) :: continuation n :: rest) =
      (decodeFrom (position + 2) rest).map (Char.ofNat n :: ·) := by
  have hlead : (UInt8.ofNat (0xC0 + n / 0x40)).toNat = 0xC0 + n / 0x40 := toNat_byte (by omega)
  have hsecond : isSecond (0xC0 + n / 0x40) (0x80 + n % 0x40) = true := by
    simp [isSecond, isContinuation]
    omega
  have hvalue : (0xC0 + n / 0x40) % 0x20 * 0x40 + (0x80 + n % 0x40) % 0x40 = n := by omega
  rw [decodeFrom.eq_def]
  dsimp only
  rw [hlead, toNat_continuation, hsecond, hvalue]
  rw [if_neg (by omega), if_neg (by simp; omega), if_neg (by simp), if_pos (by omega)]

theorem decodeFrom_three (hlow : 0x800 ≤ n) (hhigh : n < 0xD800 ∨ 0xE000 ≤ n ∧ n < 0x10000) :
    decodeFrom position (UInt8.ofNat (0xE0 + n / 0x1000) :: continuation (n / 0x40) :: continuation n :: rest) =
      (decodeFrom (position + 3) rest).map (Char.ofNat n :: ·) := by
  have hlead : (UInt8.ofNat (0xE0 + n / 0x1000)).toNat = 0xE0 + n / 0x1000 := toNat_byte (by omega)
  have hsecond : isSecond (0xE0 + n / 0x1000) (0x80 + n / 0x40 % 0x40) = true := by
    simp [isSecond, isContinuation]
    omega
  have hvalue : (0xE0 + n / 0x1000) % 0x10 * 0x1000 + (0x80 + n / 0x40 % 0x40) % 0x40 * 0x40 + (0x80 + n % 0x40) % 0x40 = n := by
    omega
  rw [decodeFrom.eq_def]
  dsimp only
  rw [hlead]
  simp only [toNat_continuation, hsecond, isContinuation_continuation, hvalue]
  rw [if_neg (by omega), if_neg (by simp; omega), if_neg (by simp), if_neg (by omega), if_neg (by simp), if_pos (by omega)]

theorem decodeFrom_four (hlow : 0x10000 ≤ n) (hhigh : n < 0x110000) :
    decodeFrom position
        (UInt8.ofNat (0xF0 + n / 0x40000) :: continuation (n / 0x1000) :: continuation (n / 0x40) :: continuation n :: rest) =
      (decodeFrom (position + 4) rest).map (Char.ofNat n :: ·) := by
  have hlead : (UInt8.ofNat (0xF0 + n / 0x40000)).toNat = 0xF0 + n / 0x40000 := toNat_byte (by omega)
  have hsecond : isSecond (0xF0 + n / 0x40000) (0x80 + n / 0x1000 % 0x40) = true := by
    simp [isSecond, isContinuation]
    omega
  have hvalue : (0xF0 + n / 0x40000) % 0x08 * 0x40000 + (0x80 + n / 0x1000 % 0x40) % 0x40 * 0x1000 +
      (0x80 + n / 0x40 % 0x40) % 0x40 * 0x40 + (0x80 + n % 0x40) % 0x40 = n := by omega
  rw [decodeFrom.eq_def]
  dsimp only
  rw [hlead]
  simp only [toNat_continuation, hsecond, isContinuation_continuation, hvalue]
  rw [if_neg (by omega), if_neg (by simp; omega), if_neg (by simp), if_neg (by omega), if_neg (by simp), if_neg (by omega),
    if_neg (by simp)]

theorem decodeFrom_encodeChar (c : Char) :
    decodeFrom position (encodeChar c ++ rest) =
      (decodeFrom (position + (encodeChar c).length) rest).map (c :: ·) := by
  have hscalar := isScalar c
  have hc := Char.ofNat_toNat c
  rw [encodeChar]
  by_cases hone : c.toNat < 0x80
  · have hdecode := decodeFrom_one position rest hone
    rw [hc] at hdecode
    rw [if_pos hone]
    exact hdecode
  by_cases htwo : c.toNat < 0x800
  · have hdecode := decodeFrom_two position rest (Nat.le_of_not_lt hone) htwo
    rw [hc] at hdecode
    rw [if_neg hone, if_pos htwo]
    exact hdecode
  by_cases hthree : c.toNat < 0x10000
  · have hdecode := decodeFrom_three position rest (Nat.le_of_not_lt htwo) (by omega)
    rw [hc] at hdecode
    rw [if_neg hone, if_neg htwo, if_pos hthree]
    exact hdecode
  · have hdecode := decodeFrom_four position rest (Nat.le_of_not_lt hthree) (by omega)
    rw [hc] at hdecode
    rw [if_neg hone, if_neg htwo, if_neg hthree]
    exact hdecode

theorem decodeFrom_encode (t : Text) : decodeFrom position (encode t) = .ok t := by
  induction t generalizing position with
  | nil => rfl
  | cons c cs ih =>
    have hrest := ih (position + (encodeChar c).length)
    rw [encode] at hrest ⊢
    rw [List.flatMap_cons, decodeFrom_encodeChar, hrest]
    rfl

theorem encodeChar_ne_nil (c : Char) : encodeChar c ≠ [] := by
  rw [encodeChar]
  split
  · simp
  · split
    · simp
    · split <;> simp

theorem decodeMarked_mark_append (t : Text) : decodeMarked (mark ++ encode t) = .ok t := by
  rw [decodeMarked]
  cases t with
  | nil => rfl
  | cons c cs =>
    obtain ⟨byte, bytes, hbytes⟩ : ∃ byte bytes, encode (c :: cs) = byte :: bytes := by
      rw [← List.ne_nil_iff_exists_cons, encode, List.flatMap_cons]
      simp [encodeChar_ne_nil]
    have hlong : (mark ++ encode (c :: cs)).isPrefixOf mark = false := by simp [hbytes, mark, List.isPrefixOf]
    have hmark : mark.isPrefixOf (mark ++ encode (c :: cs)) = true := by simp
    rw [hlong, hmark, if_neg (by simp), if_pos rfl, List.drop_left]
    exact decodeFrom_encode 0 (c :: cs)

end Utf8

/-! ### UTF-16 -/

namespace Utf16

theorem unit_unitBytes {unit : Nat} (h : unit < 0x10000) :
    Order.little.unit (UInt8.ofNat (unit % 0x100)) (UInt8.ofNat (unit / 0x100)) = unit := by
  rw [Order.unit, toNat_byte (by omega), toNat_byte (by omega)]
  omega

theorem decodeFrom_encodeChar (position : Nat) (rest : Bytes) (c : Char) :
    decodeFrom .little position (encodeChar c ++ rest) =
      (decodeFrom .little (position + (encodeChar c).length) rest).map (c :: ·) := by
  have hscalar := isScalar c
  have hc := Char.ofNat_toNat c
  rw [encodeChar]
  by_cases hbasic : c.toNat < 0x10000
  · have hlow : isLow c.toNat = false := by
      simp [isLow]
      omega
    have hhigh : isHigh c.toNat = false := by
      simp [isHigh]
      omega
    rw [if_pos hbasic]
    change decodeFrom .little position (UInt8.ofNat (c.toNat % 0x100) :: UInt8.ofNat (c.toNat / 0x100) :: rest) = _
    rw [decodeFrom.eq_def]
    dsimp only
    rw [unit_unitBytes hbasic, hlow, hhigh, hc]
    rfl
  · have hfirst : 0xD800 + (c.toNat - 0x10000) / 0x400 < 0x10000 := by omega
    have hsecond : 0xDC00 + (c.toNat - 0x10000) % 0x400 < 0x10000 := by omega
    have hnotLow : isLow (0xD800 + (c.toNat - 0x10000) / 0x400) = false := by
      simp [isLow]
      omega
    have hhigh : isHigh (0xD800 + (c.toNat - 0x10000) / 0x400) = true := by
      simp [isHigh]
      omega
    have hlow : isLow (0xDC00 + (c.toNat - 0x10000) % 0x400) = true := by
      simp [isLow]
      omega
    have hvalue : 0x10000 + (0xD800 + (c.toNat - 0x10000) / 0x400 - 0xD800) * 0x400 +
        (0xDC00 + (c.toNat - 0x10000) % 0x400 - 0xDC00) = c.toNat := by omega
    rw [if_neg hbasic]
    simp only [unitBytes, List.cons_append, List.nil_append, decodeFrom, unit_unitBytes hfirst, unit_unitBytes hsecond, hnotLow,
      hhigh, hlow, hvalue, hc]
    rfl

theorem decodeFrom_flatMap (position : Nat) (t : Text) : decodeFrom .little position (t.flatMap encodeChar) = .ok t := by
  induction t generalizing position with
  | nil => rfl
  | cons c cs ih =>
    rw [List.flatMap_cons, decodeFrom_encodeChar, ih]
    rfl

theorem decode_encode (t : Text) : decode (encode t) = .ok t := by
  change (decodeFrom .little 2 (t.flatMap encodeChar)).mapError DecodeFailure.invalid = .ok t
  rw [decodeFrom_flatMap]
  rfl

end Utf16

/-! ### ASCII and Latin-1 -/

namespace Narrow

theorem toNat_ofNat_byte (byte : UInt8) : (Char.ofNat byte.toNat).toNat = byte.toNat := by
  have hbyte : byte.toNat < 256 := byte.toNat_lt
  have hvalid : byte.toNat.isValidChar := Or.inl (by omega)
  rw [Char.ofNat, dif_pos hvalid]
  rfl

theorem toNat_lt_of_has {charset : Narrow} {c : Char} (h : charset.has c = true) : c.toNat < 0x100 := by
  have hsize : charset.size ≤ 0x100 := by cases charset <;> decide
  have hc : c.toNat < charset.size := by simpa [has] using h
  omega

theorem eq_map_of_encode {charset : Narrow} {t : Text} {bytes : Bytes} (h : charset.encode t = .ok bytes) :
    bytes = t.map fun c => UInt8.ofNat c.toNat := by
  rw [encode] at h
  split at h
  · cases h
  · exact (Except.ok.inj h).symm

theorem decodeLatin1_of_encode {charset : Narrow} {t : Text} {bytes : Bytes} (h : charset.encode t = .ok bytes) :
    decodeLatin1 bytes = t := by
  have hhas := (encode_eq_ok_iff charset t).1 ⟨bytes, h⟩
  have hchar : ∀ c ∈ t, Char.ofNat (UInt8.ofNat c.toNat).toNat = c := by
    intro c hc
    rw [toNat_byte (toNat_lt_of_has (hhas c hc)), Char.ofNat_toNat]
  rw [eq_map_of_encode h, decodeLatin1, List.map_map]
  exact (List.map_congr_left hchar).trans (List.map_id t)

theorem decodeAscii_eq_ok_iff {bytes : Bytes} {t : Text} :
    decodeAscii bytes = .ok t ↔ (∀ byte ∈ bytes, byte.toNat < 0x80) ∧ decodeLatin1 bytes = t := by
  have hall : bytes.dropWhile (·.toNat < 0x80) = [] ↔ ∀ byte ∈ bytes, byte.toNat < 0x80 := by
    simp [List.dropWhile_eq_nil_iff]
  rw [← hall, decodeAscii]
  cases bytes.dropWhile (·.toNat < 0x80) <;> simp

theorem decodeAscii_of_encode {t : Text} {bytes : Bytes} (h : ascii.encode t = .ok bytes) : decodeAscii bytes = .ok t := by
  have hhas := (encode_eq_ok_iff ascii t).1 ⟨bytes, h⟩
  refine decodeAscii_eq_ok_iff.2 ⟨?_, decodeLatin1_of_encode h⟩
  intro byte hbyte
  rw [eq_map_of_encode h] at hbyte
  obtain ⟨c, hc, rfl⟩ := List.mem_map.1 hbyte
  rw [toNat_byte (toNat_lt_of_has (hhas c hc))]
  exact of_decide_eq_true (hhas c hc)

theorem has_of_mem_decodeLatin1 {charset : Narrow} {bytes : Bytes} (h : ∀ byte ∈ bytes, byte.toNat < charset.size) :
    ∀ c ∈ decodeLatin1 bytes, charset.has c = true := by
  intro c hc
  obtain ⟨byte, hbyte, rfl⟩ := List.mem_map.1 hc
  rw [has, toNat_ofNat_byte]
  exact decide_eq_true (h byte hbyte)

end Narrow

/-! ### Every charset -/

def has : Charset → Char → Bool
  | .ascii, c => Narrow.ascii.has c
  | .latin1, c => Narrow.latin1.has c
  | _, _ => true

/-- Every charset has the characters that layout and markup put into a text. -/
theorem has_of_lt (charset : Charset) {c : Char} (h : c.toNat < 0x80) : charset.has c = true := by
  cases charset with
  | ascii => exact decide_eq_true h
  | latin1 => exact decide_eq_true (Nat.lt_trans h (by decide))
  | _ => rfl

theorem exists_encode_of_has {charset : Charset} {t : Text} (h : ∀ c ∈ t, charset.has c = true) :
    ∃ bytes, charset.encode t = .ok bytes := by
  cases charset with
  | utf8 => exact ⟨_, rfl⟩
  | utf8Marked => exact ⟨_, rfl⟩
  | utf16 => exact ⟨_, rfl⟩
  | ascii => exact (Narrow.encode_eq_ok_iff .ascii t).2 h
  | latin1 => exact (Narrow.encode_eq_ok_iff .latin1 t).2 h

theorem has_of_decode {charset : Charset} {bytes : Bytes} {t : Text} (h : charset.decode bytes = .ok t) :
    ∀ c ∈ t, charset.has c = true := by
  cases charset with
  | utf8 => exact fun _ _ => rfl
  | utf8Marked => exact fun _ _ => rfl
  | utf16 => exact fun _ _ => rfl
  | ascii =>
    have hdecode : Narrow.decodeAscii bytes = .ok t := by
      rw [decode] at h
      cases hascii : Narrow.decodeAscii bytes with
      | error e => simp [hascii, Except.mapError] at h
      | ok text => simpa [hascii, Except.mapError] using h
    obtain ⟨hbytes, rfl⟩ := Narrow.decodeAscii_eq_ok_iff.1 hdecode
    exact Narrow.has_of_mem_decodeLatin1 hbytes
  | latin1 =>
    obtain rfl : Narrow.decodeLatin1 bytes = t := Except.ok.inj h
    exact Narrow.has_of_mem_decodeLatin1 fun byte _ => byte.toNat_lt

theorem decode_of_encode {charset : Charset} {t : Text} {bytes : Bytes} (h : charset.encode t = .ok bytes) :
    charset.decode bytes = .ok t := by
  cases charset with
  | utf8 =>
    obtain rfl := Except.ok.inj h
    rw [decode, Utf8.decode, Utf8.decodeFrom_encode]
    rfl
  | utf8Marked =>
    obtain rfl := Except.ok.inj h
    rw [decode, Utf8.decodeMarked_mark_append]
    rfl
  | utf16 =>
    obtain rfl := Except.ok.inj h
    exact Utf16.decode_encode t
  | ascii =>
    rw [decode, Narrow.decodeAscii_of_encode h]
    rfl
  | latin1 => exact congrArg Except.ok (Narrow.decodeLatin1_of_encode h)

end Quotation.Charset
