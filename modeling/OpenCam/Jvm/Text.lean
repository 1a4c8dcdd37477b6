import OpenCam.Bytes.Utf8

/-!
Strings of the Java virtual machine: UTF-16 code units in which surrogates
need not be paired, their conversion to UTF-8, and what Kotlin code asks of
single characters.
-/

namespace Jvm

open Octets

abbrev JString := List UInt16

/-- The string of a literal whose characters are single code units. -/
def literal (text : String) : JString := text.toList.map fun c => UInt16.ofNat c.toNat

def isHighSurrogate (unit : UInt16) : Bool := 0xd800 ≤ unit && unit ≤ 0xdbff

def isLowSurrogate (unit : UInt16) : Bool := 0xdc00 ≤ unit && unit ≤ 0xdfff

/-- `Character.toCodePoint`. -/
def toCodePoint (high low : UInt16) : Nat :=
  (high.toNat - 0xd800) * 1024 + (low.toNat - 0xdc00) + 0x10000

/-- The character an encoder writes for a code unit that is not half of a pair. -/
def unpaired (unit : UInt16) : Char :=
  if isHighSurrogate unit || isLowSurrogate unit then '?' else Char.ofNat unit.toNat

/-- The characters an encoder writes: pairs joined, lone surrogates replaced. -/
def encodedChars : JString → List Char
  | [] => []
  | [unit] => [unpaired unit]
  | unit :: next :: rest =>
      if isHighSurrogate unit && isLowSurrogate next then
        Char.ofNat (toCodePoint unit next) :: encodedChars rest
      else unpaired unit :: encodedChars (next :: rest)

/-- `toByteArray(StandardCharsets.UTF_8)`. -/
def toUtf8 (text : JString) : Bytes := (encodedChars text).flatMap String.utf8EncodeChar

theorem toUtf8_wellFormed (text : JString) : WellFormedUtf8 (toUtf8 text) :=
  ⟨encodedChars text, rfl⟩

theorem encodedChars_eq_nil {text : JString} : encodedChars text = [] ↔ text = [] := by
  cases text with
  | nil => simp [encodedChars]
  | cons unit rest =>
      cases rest with
      | nil => simp [encodedChars]
      | cons next rest =>
          unfold encodedChars
          split <;> simp

theorem toUtf8_eq_nil {text : JString} : toUtf8 text = [] ↔ text = [] := by
  rw [toUtf8, List.flatMap_eq_nil_iff, ← encodedChars_eq_nil]
  constructor
  · intro h
    cases hchars : encodedChars text with
    | nil => rfl
    | cons c rest => exact absurd (h c (by simp [hchars])) (utf8EncodeChar_ne_nil c)
  · intro h
    simp [h]

section Ascii

variable {text : JString}

theorem toNat_ofNat {value : Nat} (h : value.isValidChar) : (Char.ofNat value).val.toNat = value := by
  rw [Char.ofNat, dif_pos h]
  rfl

theorem not_surrogate {unit : UInt16} (h : unit < 0x80) :
    isHighSurrogate unit = false ∧ isLowSurrogate unit = false := by
  have hlow : unit.toNat < 0x80 := UInt16.lt_iff_toNat_lt.mp h
  have hhigh : ¬ (0xd800 : UInt16) ≤ unit := by
    rw [UInt16.le_iff_toNat_le]
    exact Nat.not_le.mpr (hlow.trans (by decide))
  have hlower : ¬ (0xdc00 : UInt16) ≤ unit := by
    rw [UInt16.le_iff_toNat_le]
    exact Nat.not_le.mpr (hlow.trans (by decide))
  simp [isHighSurrogate, isLowSurrogate, hhigh, hlower]

theorem encodedChars_ascii (h : ∀ unit ∈ text, unit < 0x80) :
    encodedChars text = text.map fun unit => Char.ofNat unit.toNat := by
  induction text with
  | nil => rfl
  | cons unit rest ih =>
      rw [List.forall_mem_cons] at h
      obtain ⟨hhigh, hlow⟩ := not_surrogate h.1
      cases rest with
      | nil => simp [encodedChars, unpaired, hhigh, hlow]
      | cons next rest =>
          rw [encodedChars, hhigh, Bool.false_and, if_neg Bool.false_ne_true, ih h.2]
          simp [unpaired, hhigh, hlow]

/-- A string of ASCII characters is encoded character by character. -/
theorem toUtf8_ascii (h : ∀ unit ∈ text, unit < 0x80) : toUtf8 text = text.map UInt16.toUInt8 := by
  rw [toUtf8, encodedChars_ascii h]
  induction text with
  | nil => rfl
  | cons unit rest ih =>
      rw [List.forall_mem_cons] at h
      have hsmall : unit.toNat < 0x80 := UInt16.lt_iff_toNat_lt.mp h.1
      have hvalue : (Char.ofNat unit.toNat).val.toNat = unit.toNat := toNat_ofNat (Or.inl (by omega))
      rw [List.map_cons, List.flatMap_cons, ih h.2, utf8EncodeChar_one hvalue (by omega)]
      rfl

/-- A character whose encoding is ASCII is an ASCII character. -/
theorem ascii_of_encode {c : Char} (h : ∀ byte ∈ String.utf8EncodeChar c, byte < 0x80) :
    c.val.toNat ≤ 0x7f := by
  by_contra hlarge
  obtain ⟨byte, hbyte, hhigh⟩ : ∃ byte ∈ String.utf8EncodeChar c, 0x80 ≤ byte.toNat := by
    by_cases htwo : c.val.toNat ≤ 0x7ff
    · rw [utf8EncodeChar_two rfl (by omega) htwo]
      exact ⟨_, List.mem_cons_of_mem _ List.mem_cons_self, by rw [UInt8.toNat_ofNat']; omega⟩
    by_cases hthree : c.val.toNat ≤ 0xffff
    · rw [utf8EncodeChar_three rfl (by omega) hthree]
      exact ⟨_, List.mem_cons_of_mem _ List.mem_cons_self, by rw [UInt8.toNat_ofNat']; omega⟩
    · rw [utf8EncodeChar_four rfl (by omega)]
      exact ⟨_, List.mem_cons_of_mem _ List.mem_cons_self, by rw [UInt8.toNat_ofNat']; omega⟩
  have hlow : byte.toNat < 0x80 := UInt8.lt_iff_toNat_lt.mp (h byte hbyte)
  omega

theorem isValidChar_of_not_surrogate {unit : UInt16}
    (h : ¬ (isHighSurrogate unit || isLowSurrogate unit) = true) : unit.toNat.isValidChar := by
  have hlt := unit.toNat_lt
  simp only [isHighSurrogate, isLowSurrogate, Bool.or_eq_true, Bool.and_eq_true, decide_eq_true_eq,
    UInt16.le_iff_toNat_le, UInt16.reduceToNat] at h
  by_cases hlow : unit.toNat < 0xd800
  · exact Or.inl hlow
  · exact Or.inr (by omega)

/-- The encoder writes an ASCII character for a unit that is none only as a question mark. -/
theorem ascii_of_unpaired {unit : UInt16}
    (h : ∀ byte ∈ String.utf8EncodeChar (unpaired unit), byte < 0x80 ∧ byte ≠ 63) : unit < 0x80 := by
  have hsmall := ascii_of_encode fun byte hbyte => (h byte hbyte).1
  unfold unpaired at h hsmall
  split at h
  · have hmark : (63 : UInt8) ∈ String.utf8EncodeChar '?' := by decide
    exact absurd rfl (h 63 hmark).2
  · next hproper =>
      rw [if_neg hproper, toNat_ofNat (isValidChar_of_not_surrogate hproper)] at hsmall
      exact UInt16.lt_iff_toNat_lt.mpr (Nat.lt_succ_of_le hsmall)

theorem toCodePoint_large {high low : UInt16} (hhigh : isHighSurrogate high = true)
    (hlow : isLowSurrogate low = true) :
    0x10000 ≤ toCodePoint high low ∧ (toCodePoint high low).isValidChar := by
  simp only [isHighSurrogate, isLowSurrogate, Bool.and_eq_true, decide_eq_true_eq,
    UInt16.le_iff_toNat_le, UInt16.reduceToNat] at hhigh hlow
  unfold toCodePoint
  constructor
  · omega
  · exact Or.inr (by omega)

/-- Where no question mark is written, only ASCII characters are encoded as ASCII. -/
theorem ascii_of_toUtf8 (h : ∀ byte ∈ toUtf8 text, byte < 0x80 ∧ byte ≠ 63) :
    ∀ unit ∈ text, unit < 0x80 := by
  induction text using encodedChars.induct with
  | case1 => simp
  | case2 unit =>
      rw [List.forall_mem_singleton]
      apply ascii_of_unpaired
      simpa [toUtf8, encodedChars] using h
  | case3 unit next rest hpair _ =>
      rw [Bool.and_eq_true] at hpair
      obtain ⟨hlarge, hvalid⟩ := toCodePoint_large hpair.1 hpair.2
      rw [toUtf8, encodedChars, if_pos (by rw [hpair.1, hpair.2]; rfl), List.flatMap_cons] at h
      have hsmall := ascii_of_encode fun byte hbyte => (h byte (List.mem_append_left _ hbyte)).1
      rw [toNat_ofNat hvalid] at hsmall
      omega
  | case4 unit next rest hpair ih =>
      rw [toUtf8, encodedChars, if_neg hpair, List.flatMap_cons] at h
      rw [List.forall_mem_cons]
      exact ⟨ascii_of_unpaired fun byte hbyte => h byte (List.mem_append_left _ hbyte),
        ih fun byte hbyte => h byte (List.mem_append_right _ hbyte)⟩

end Ascii

section Decoding

/-- The value that a leading byte and the bytes behind it spell out, before
any check. -/
def spelledValue : Bytes → Nat
  | [] => 0
  | lead :: rest =>
      let low := fun index => (rest.getD index 0).toNat % 64
      if lead.toNat < 0x80 then lead.toNat
      else if lead.toNat < 0xe0 then lead.toNat % 32 * 64 + low 0
      else if lead.toNat < 0xf0 then lead.toNat % 16 * 4096 + low 0 * 64 + low 1
      else lead.toNat % 8 * 262144 + low 0 * 4096 + low 1 * 64 + low 2

/-- The character whose encoding the bytes start with. -/
def decodeChar (bytes : Bytes) : Option Char :=
  if (String.utf8EncodeChar (.ofNat (spelledValue bytes))).isPrefixOf bytes then
    some (.ofNat (spelledValue bytes))
  else none

/-- The characters of a byte string, by at most as many steps as it has bytes. -/
def decodeChars : Nat → Bytes → Option (List Char)
  | 0, bytes => if bytes.isEmpty then some [] else none
  | steps + 1, bytes =>
      if bytes.isEmpty then some []
      else
        match decodeChar bytes with
        | some c => (decodeChars steps (bytes.drop (String.utf8EncodeChar c).length)).map (c :: ·)
        | none => none

def toUtf16 (c : Char) : JString :=
  if c.toNat < 0x10000 then [UInt16.ofNat c.toNat]
  else [UInt16.ofNat (0xd800 + (c.toNat - 0x10000) / 1024),
    UInt16.ofNat (0xdc00 + (c.toNat - 0x10000) % 1024)]

/-- The decoder of UTF-8 that reports malformed input. -/
def decodeUtf8 (bytes : Bytes) : Option JString :=
  (decodeChars bytes.length bytes).map fun chars => chars.flatMap toUtf16

theorem spelledValue_encode (c : Char) (rest : Bytes) :
    spelledValue (String.utf8EncodeChar c ++ rest) = c.toNat := by
  have hvalid := char_value_valid c
  change _ = c.val.toNat
  by_cases hone : c.val.toNat ≤ 0x7f
  · rw [utf8EncodeChar_one rfl hone]
    simp only [List.cons_append, spelledValue, UInt8.toNat_ofNat']
    split_ifs <;> omega
  by_cases htwo : c.val.toNat ≤ 0x7ff
  · rw [utf8EncodeChar_two rfl (by omega) htwo]
    simp only [List.cons_append, spelledValue, List.getD_cons_zero, UInt8.toNat_ofNat']
    split_ifs <;> omega
  by_cases hthree : c.val.toNat ≤ 0xffff
  · rw [utf8EncodeChar_three rfl (by omega) hthree]
    simp only [List.cons_append, spelledValue, List.getD_cons_zero, List.getD_cons_succ,
      UInt8.toNat_ofNat']
    split_ifs <;> omega
  · rw [utf8EncodeChar_four rfl (by omega)]
    simp only [List.cons_append, spelledValue, List.getD_cons_zero, List.getD_cons_succ,
      UInt8.toNat_ofNat']
    split_ifs <;> omega

theorem decodeChar_encode (c : Char) (rest : Bytes) :
    decodeChar (String.utf8EncodeChar c ++ rest) = some c := by
  unfold decodeChar
  rw [spelledValue_encode, Char.ofNat_toNat]
  exact if_pos (List.isPrefixOf_iff_prefix.mpr (List.prefix_append _ _))

theorem decodeChars_encode (chars : List Char) (steps : Nat)
    (hsteps : (chars.flatMap String.utf8EncodeChar).length ≤ steps) :
    decodeChars steps (chars.flatMap String.utf8EncodeChar) = some chars := by
  induction chars generalizing steps with
  | nil => cases steps <;> rfl
  | cons c rest ih =>
      rw [List.flatMap_cons] at hsteps ⊢
      have hne := utf8EncodeChar_ne_nil c
      have hpos := List.length_pos_iff.mpr hne
      rw [List.length_append] at hsteps
      obtain ⟨steps, rfl⟩ : ∃ fewer, steps = fewer + 1 := ⟨steps - 1, by omega⟩
      have hfull : (String.utf8EncodeChar c ++ rest.flatMap String.utf8EncodeChar).isEmpty = false := by
        simp [hne]
      rw [decodeChars, hfull, decodeChar_encode]
      simp only [Bool.false_eq_true, ↓reduceIte, List.drop_left, ih steps (by omega), Option.map_some]

theorem decodeUtf8_encode (chars : List Char) :
    decodeUtf8 (chars.flatMap String.utf8EncodeChar) = some (chars.flatMap toUtf16) := by
  rw [decodeUtf8, decodeChars_encode chars _ (le_refl _), Option.map_some]

end Decoding

/-- `Char.isWhitespace()`: the control characters that Java calls white space
and the space, line and paragraph separators of Unicode. -/
def isWhitespace (unit : UInt16) : Bool :=
  (0x09 ≤ unit && unit ≤ 0x0d) || (0x1c ≤ unit && unit ≤ 0x20) || unit = 0xa0 ||
    unit = 0x1680 || (0x2000 ≤ unit && unit ≤ 0x200a) || unit = 0x2028 || unit = 0x2029 ||
    unit = 0x202f || unit = 0x205f || unit = 0x3000

/-- `isNotBlank()`. -/
def isNotBlank (text : JString) : Bool := !text.all isWhitespace

theorem ne_nil_of_isNotBlank {text : JString} (h : isNotBlank text = true) : text ≠ [] := by
  rintro rfl
  cases h

/-- The zeros of the scripts that have decimal digits of a single code unit. The digits
from one to nine follow each. -/
def digitZeros : List UInt16 :=
  [0x30, 0x660, 0x6f0, 0x7c0, 0x966, 0x9e6, 0xa66, 0xae6, 0xb66, 0xbe6, 0xc66, 0xce6, 0xd66, 0xde6,
    0xe50, 0xed0, 0xf20, 0x1040, 0x1090, 0x17e0, 0x1810, 0x1946, 0x19d0, 0x1a80, 0x1a90, 0x1b50,
    0x1bb0, 0x1c40, 0x1c50, 0xa620, 0xa8d0, 0xa900, 0xa9d0, 0xa9f0, 0xaa50, 0xabf0, 0xff10]

/-- The value of a decimal digit of any script, or of a letter of the Latin alphabet in
its usual or its full-width form. -/
def digitValue (unit : UInt16) : Option Nat :=
  match digitZeros.find? fun zero => zero ≤ unit && unit ≤ zero + 9 with
  | some zero => some (unit.toNat - zero.toNat)
  | none =>
      if 0x41 ≤ unit && unit ≤ 0x5a then some (unit.toNat - 0x41 + 10)
      else if 0x61 ≤ unit && unit ≤ 0x7a then some (unit.toNat - 0x61 + 10)
      else if 0xff21 ≤ unit && unit ≤ 0xff3a then some (unit.toNat - 0xff21 + 10)
      else if 0xff41 ≤ unit && unit ≤ 0xff5a then some (unit.toNat - 0xff41 + 10)
      else none

/-- `Character.digit(unit, radix)`. -/
def digit (unit : UInt16) (radix : Nat) : Int :=
  match digitValue unit with
  | some value => if value < radix then value else -1
  | none => -1

/-- The lower-case ASCII character a code unit stands for when letter case is
ignored. Besides the ASCII letters these are the dotted and the dotless I, the
long S and the Kelvin sign. -/
def foldCase (unit : UInt16) : UInt16 :=
  if 65 ≤ unit && unit ≤ 90 then unit + 32
  else if unit = 0x130 || unit = 0x131 then 105
  else if unit = 0x17f then 115
  else if unit = 0x212a then 107
  else unit

/-- `equals(other, ignoreCase = true)` where one side is ASCII. -/
def equalsIgnoreCase (text other : JString) : Bool :=
  text.map foldCase = other.map foldCase

end Jvm
