import OpenCam.Bytes.BigEndian

/-!
Well-formed UTF-8 as a language of byte strings: the concatenations of the
encodings of Unicode scalar values. A validator that walks a string sequence
by sequence only has to recognise one encoding at a time
(`wellFormedUtf8_iff_split`), and there are four shapes of encoding.
-/

namespace Octets

open String (utf8EncodeChar)

/-- A concatenation of the encodings of scalar values. -/
def WellFormedUtf8 (bytes : Bytes) : Prop :=
  ∃ chars : List Char, bytes = chars.flatMap utf8EncodeChar

theorem utf8EncodeChar_ne_nil (c : Char) : utf8EncodeChar c ≠ [] := by
  unfold utf8EncodeChar
  dsimp only
  split_ifs <;> simp

theorem wellFormedUtf8_nil : WellFormedUtf8 [] := ⟨[], rfl⟩

/-- The language front to back: a well-formed string starts with the encoding
of some scalar value and goes on well-formed behind it. -/
theorem wellFormedUtf8_iff_split {bytes : Bytes} (hne : bytes ≠ []) :
    WellFormedUtf8 bytes ↔
      ∃ c, utf8EncodeChar c <+: bytes ∧
        WellFormedUtf8 (bytes.drop (utf8EncodeChar c).length) := by
  constructor
  · rintro ⟨chars, rfl⟩
    cases chars with
    | nil => simp at hne
    | cons c chars =>
        rw [List.flatMap_cons]
        exact ⟨c, List.prefix_append _ _, chars, List.drop_left⟩
  · rintro ⟨c, ⟨rest, rfl⟩, chars, hchars⟩
    rw [List.drop_left] at hchars
    exact ⟨c :: chars, by rw [List.flatMap_cons, hchars]⟩

section Encodings

/-- The value of a scalar is a valid code point: below the surrogates or
between them and `U+10FFFF`. -/
theorem char_value_valid (c : Char) :
    c.val.toNat < 0xd800 ∨ (0xdfff < c.val.toNat ∧ c.val.toNat < 0x110000) := c.valid

/-- Every valid code point is the value of a scalar. -/
theorem exists_char (value : Nat)
    (hvalue : value < 0xd800 ∨ (0xdfff < value ∧ value < 0x110000)) :
    ∃ c : Char, c.val.toNat = value := by
  have hsmall : value < UInt32.size := by
    have : UInt32.size = 4294967296 := rfl
    omega
  have hnat : (UInt32.ofNat value).toNat = value := UInt32.toNat_ofNat_of_lt hsmall
  exact ⟨⟨UInt32.ofNat value, by rw [UInt32.isValidChar, hnat]; exact hvalue⟩, hnat⟩

variable {c : Char} {value : Nat}

theorem utf8EncodeChar_one (hc : c.val.toNat = value) (h : value ≤ 0x7f) :
    utf8EncodeChar c = [UInt8.ofNat value] := by
  simp [utf8EncodeChar, hc, h]

theorem utf8EncodeChar_two (hc : c.val.toNat = value) (hlow : 0x7f < value)
    (h : value ≤ 0x7ff) :
    utf8EncodeChar c = [UInt8.ofNat (value / 64 % 32 + 192), UInt8.ofNat (value % 64 + 128)] := by
  simp [utf8EncodeChar, hc, h, show ¬ value ≤ 127 by omega]

theorem utf8EncodeChar_three (hc : c.val.toNat = value) (hlow : 0x7ff < value)
    (h : value ≤ 0xffff) :
    utf8EncodeChar c = [UInt8.ofNat (value / 4096 % 16 + 224),
      UInt8.ofNat (value / 64 % 64 + 128), UInt8.ofNat (value % 64 + 128)] := by
  simp [utf8EncodeChar, hc, h, show ¬ value ≤ 127 by omega, show ¬ value ≤ 2047 by omega]

theorem utf8EncodeChar_four (hc : c.val.toNat = value) (hlow : 0xffff < value) :
    utf8EncodeChar c = [UInt8.ofNat (value / 262144 % 8 + 240),
      UInt8.ofNat (value / 4096 % 64 + 128), UInt8.ofNat (value / 64 % 64 + 128),
      UInt8.ofNat (value % 64 + 128)] := by
  simp [utf8EncodeChar, hc, show ¬ value ≤ 127 by omega, show ¬ value ≤ 2047 by omega,
    show ¬ value ≤ 65535 by omega]

end Encodings

end Octets
