import OpenCam.Android.ControlProtocol
import OpenCam.Linux.ControlProtocol

/-!
Hexadecimal strings on both sides. The controller's decoder takes the digits of ASCII;
the phone's takes whatever Java calls a digit, and the two agree exactly on the strings
in which that makes no difference.
-/

namespace OpenCam.Control

open Octets Jvm

/-- `0` to `9`, `a` to `f` and `A` to `F`. -/
def IsHexDigit (unit : UInt16) : Prop :=
  (48 ≤ unit ∧ unit ≤ 57) ∨ (97 ≤ unit ∧ unit ≤ 102) ∨ (65 ≤ unit ∧ unit ≤ 70)

/-- A string of so many pairs of hexadecimal digits. -/
def IsHex (text : JString) (size : Nat) : Prop :=
  text.length = 2 * size ∧ ∀ unit ∈ text, IsHexDigit unit

/-- The bytes of a list of digit values. -/
def pairBytes : List Nat → Bytes
  | high :: low :: rest => UInt8.ofNat (high <<< 4 ||| low) :: pairBytes rest
  | _ => []

theorem pairBytes_length (values : List Nat) : (pairBytes values).length = values.length / 2 := by
  induction values using pairBytes.induct with
  | case1 high low rest ih =>
      simp only [pairBytes, List.length_cons, ih]
      omega
  | case2 values hshort =>
      match values, hshort with
      | [], _ => rfl
      | [_], _ => simp [pairBytes]
      | high :: low :: rest, hshort => exact absurd rfl (hshort high low rest)

section Phone

/-- The pair of digits at an index. -/
def decodePair (text : JString) (index : Nat) : Except String UInt8 :=
  let high := digit (text.getD (index * 2) 0) 16
  let low := digit (text.getD (index * 2 + 1) 0) 16
  if high ≥ 0 ∧ low ≥ 0 then .ok (UInt8.ofNat (high.toNat <<< 4 ||| low.toNat))
  else .error "Invalid hexadecimal string"

theorem decodeHex_eq (text : JString) (heven : text.length % 2 = 0) :
    Android.decodeHex text = (List.range (text.length / 2)).mapM (decodePair text) := by
  rw [Android.decodeHex, if_neg (by omega)]
  rfl

/-- Behind the first pair the indices count the rest. -/
theorem decodePair_succ (high low : UInt16) (rest : JString) (index : Nat) :
    decodePair (high :: low :: rest) (index + 1) = decodePair rest index := by
  have hhigh : (index + 1) * 2 = index * 2 + 1 + 1 := by omega
  simp only [decodePair, hhigh, List.getD_cons_succ]

/-- One pair of digits after the other. -/
theorem decodeHex_cons (high low : UInt16) (rest : JString) (heven : rest.length % 2 = 0) :
    Android.decodeHex (high :: low :: rest) =
      (if 0 ≤ digit high 16 ∧ 0 ≤ digit low 16 then
        (Android.decodeHex rest).map fun bytes =>
          UInt8.ofNat ((digit high 16).toNat <<< 4 ||| (digit low 16).toNat) :: bytes
      else .error "Invalid hexadecimal string") := by
  have hcount : (high :: low :: rest).length / 2 = rest.length / 2 + 1 := by
    simp only [List.length_cons]
    omega
  have hwhole : (high :: low :: rest).length % 2 = 0 := by
    simp only [List.length_cons]
    omega
  have hlater : (decodePair (high :: low :: rest)) ∘ Nat.succ = decodePair rest :=
    funext (decodePair_succ high low rest)
  have hfirst : decodePair (high :: low :: rest) 0 =
      if 0 ≤ digit high 16 ∧ 0 ≤ digit low 16 then
        .ok (UInt8.ofNat ((digit high 16).toNat <<< 4 ||| (digit low 16).toNat))
      else .error "Invalid hexadecimal string" := rfl
  rw [decodeHex_eq _ hwhole, decodeHex_eq rest heven, hcount, List.range_succ_eq_map,
    List.mapM_cons, List.mapM_map, hlater, hfirst]
  by_cases hpair : 0 ≤ digit high 16 ∧ 0 ≤ digit low 16
  · rw [if_pos hpair, if_pos hpair]
    cases (List.range (rest.length / 2)).mapM (decodePair rest) <;> rfl
  · rw [if_neg hpair, if_neg hpair]
    rfl

/-- What the phone decodes, digit by digit: the values if all of them are digits. -/
theorem decodeHex_digits (text : JString) (heven : text.length % 2 = 0)
    (hdigits : ∀ unit ∈ text, 0 ≤ digit unit 16) :
    Android.decodeHex text =
      .ok (pairBytes (text.map fun unit => (digit unit 16).toNat)) := by
  induction text using List.twoStepInduction with
  | nil => rfl
  | singleton unit => simp at heven
  | cons_cons high low rest ih _ =>
      have hrest : rest.length % 2 = 0 := by
        simp only [List.length_cons] at heven
        omega
      rw [List.forall_mem_cons, List.forall_mem_cons] at hdigits
      rw [decodeHex_cons high low rest hrest, if_pos ⟨hdigits.1, hdigits.2.1⟩,
        ih hrest hdigits.2.2]
      rfl

/-- Anything that is not a digit refuses the whole text. -/
theorem decodeHex_refused (text : JString) (heven : text.length % 2 = 0)
    (hdigits : ¬ ∀ unit ∈ text, 0 ≤ digit unit 16) :
    Android.decodeHex text = .error "Invalid hexadecimal string" := by
  induction text using List.twoStepInduction with
  | nil => exact absurd (List.forall_mem_nil _) hdigits
  | singleton unit => simp at heven
  | cons_cons high low rest ih _ =>
      have hrest : rest.length % 2 = 0 := by
        simp only [List.length_cons] at heven
        omega
      rw [decodeHex_cons high low rest hrest]
      by_cases hpair : 0 ≤ digit high 16 ∧ 0 ≤ digit low 16
      · rw [List.forall_mem_cons, List.forall_mem_cons] at hdigits
        have hlater : ¬ ∀ unit ∈ rest, 0 ≤ digit unit 16 :=
          fun hall => hdigits ⟨hpair.1, hpair.2, hall⟩
        rw [if_pos hpair, ih hrest hlater]
        rfl
      · rw [if_neg hpair]

theorem decodeHex_odd (text : JString) (hodd : text.length % 2 ≠ 0) :
    Android.decodeHex text = .error "Hex string must have even length" := by
  rw [Android.decodeHex, if_pos hodd]

/-- A decoded string has twice as many characters as bytes, all of them digits. -/
theorem decodeHex_ok_iff (text : JString) (size : Nat) :
    (∃ bytes, Android.decodeHex text = .ok bytes ∧ bytes.length = size) ↔
      text.length = 2 * size ∧ ∀ unit ∈ text, 0 ≤ digit unit 16 := by
  by_cases heven : text.length % 2 = 0
  · by_cases hall : ∀ unit ∈ text, 0 ≤ digit unit 16
    · rw [decodeHex_digits text heven hall]
      simp only [Except.ok.injEq, exists_eq_left', pairBytes_length, List.length_map]
      constructor
      · intro hsize
        exact ⟨by omega, hall⟩
      · rintro ⟨hsize, _⟩
        omega
    · rw [decodeHex_refused text heven hall]
      simp [hall]
  · rw [decodeHex_odd text heven]
    constructor
    · rintro ⟨bytes, hbytes, _⟩
      cases hbytes
    · rintro ⟨hsize, _⟩
      omega

end Phone

section Controller

/-- The values of the digits of a text. -/
def nibbles (text : Bytes) : List Nat := text.map fun c => (Linux.nibble c).toNat

/-- By induction on the pairs that are left: the loop fills the rest of the output, or
stops at something that is not a digit. -/
theorem decodeHexLoop_eq (rest : Bytes) :
    ∀ (front output : Bytes) (remaining i : Nat), front.length = 2 * i →
      rest.length = 2 * remaining → output.length = i + remaining →
      ((Linux.decodeHexLoop (front ++ rest) remaining i output).1 = true ↔
        ∀ c ∈ rest, 0 ≤ Linux.nibble c) ∧
      ((∀ c ∈ rest, 0 ≤ Linux.nibble c) →
        (Linux.decodeHexLoop (front ++ rest) remaining i output).2 =
          output.take i ++ pairBytes (nibbles rest)) := by
  induction rest using List.twoStepInduction with
  | nil =>
      intro front output remaining i hfront hrest houtput
      obtain rfl : remaining = 0 := by simpa using hrest.symm
      have hfull : output.take i = output := List.take_of_length_le (by omega)
      simp [Linux.decodeHexLoop, nibbles, pairBytes, hfull]
  | singleton c =>
      intro front output remaining i hfront hrest houtput
      simp only [List.length_singleton] at hrest
      omega
  | cons_cons high low rest ih _ =>
      intro front output remaining i hfront hrest houtput
      obtain ⟨remaining, rfl⟩ : ∃ fewer, remaining = fewer + 1 := by
        simp only [List.length_cons] at hrest
        exact ⟨remaining - 1, by omega⟩
      simp only [List.length_cons] at hrest
      have hhigh : (front ++ high :: low :: rest).getD (i * 2) 0 = high := by
        rw [List.getD_eq_getElem?_getD, List.getElem?_append_right (by omega),
          show i * 2 - front.length = 0 by omega]
        rfl
      have hlow : (front ++ high :: low :: rest).getD (i * 2 + 1) 0 = low := by
        rw [List.getD_eq_getElem?_getD, List.getElem?_append_right (by omega),
          show i * 2 + 1 - front.length = 1 by omega]
        rfl
      rw [Linux.decodeHexLoop, hhigh, hlow, List.forall_mem_cons, List.forall_mem_cons]
      by_cases hpair : Linux.nibble high < 0 ∨ Linux.nibble low < 0
      · have hnot : ¬ (0 ≤ Linux.nibble high ∧ 0 ≤ Linux.nibble low ∧
            ∀ c ∈ rest, 0 ≤ Linux.nibble c) := by
          rintro ⟨h, l, _⟩
          omega
        rw [if_pos hpair]
        simp [hnot]
      · obtain ⟨byte, hbyte⟩ : ∃ byte, byte = UInt8.ofNat
            ((Linux.nibble high).toNat <<< 4 ||| (Linux.nibble low).toNat) := ⟨_, rfl⟩
        have hsplit : front ++ high :: low :: rest = (front ++ [high, low]) ++ rest := by simp
        have hlonger : (front ++ [high, low]).length = 2 * (i + 1) := by
          simp only [List.length_append, List.length_cons, List.length_nil]
          omega
        have hset : (output.set i byte).length = i + 1 + remaining := by
          rw [List.length_set]
          omega
        obtain ⟨hresult, hfilled⟩ := ih (front ++ [high, low]) (output.set i byte) remaining (i + 1)
          hlonger (by omega) hset
        have htake : (output.set i byte).take (i + 1) = output.take i ++ [byte] := by
          have hfront : (output.take i).length = i := List.length_take_of_le (by omega)
          rw [List.set_eq_take_append_cons_drop, if_pos (by omega), List.take_append, hfront,
            Nat.add_sub_cancel_left, List.take_of_length_le (by omega), List.take_succ_cons,
            List.take_zero]
        have hboth : 0 ≤ Linux.nibble high ∧ 0 ≤ Linux.nibble low := by omega
        rw [← hbyte, if_neg hpair, hsplit]
        constructor
        · rw [hresult]
          exact ⟨fun hall => ⟨hboth.1, hboth.2, hall⟩, fun hall => hall.2.2⟩
        · rintro ⟨_, _, hall⟩
          rw [hfilled hall, htake, hbyte]
          simp [nibbles, pairBytes]

/-- What the controller decodes into an output of the right size. -/
theorem decodeHex_controller (text output : Bytes) {size : Nat} (houtput : output.length = size) :
    ((Linux.decodeHex text output size).1 = true ↔
      text.length = 2 * size ∧ ∀ c ∈ text, 0 ≤ Linux.nibble c) ∧
    ((Linux.decodeHex text output size).1 = true →
      (Linux.decodeHex text output size).2 = pairBytes (nibbles text)) := by
  by_cases hsize : text.length = size * 2
  · have hloop := decodeHexLoop_eq text [] output size 0 rfl (by omega) (by omega)
    rw [List.nil_append] at hloop
    rw [Linux.decodeHex, if_neg (not_not.mpr hsize), hloop.1]
    constructor
    · constructor
      · exact fun hall => ⟨by omega, hall⟩
      · exact fun h => h.2
    · intro hall
      simpa using hloop.2 hall
  · rw [Linux.decodeHex, if_pos hsize]
    constructor
    · constructor
      · intro h
        cases h
      · rintro ⟨hlength, _⟩
        omega
    · intro h
      cases h

end Controller

section Agreement

instance : DecidablePred IsHexDigit := fun unit =>
  inferInstanceAs (Decidable ((48 ≤ unit ∧ unit ≤ 57) ∨ (97 ≤ unit ∧ unit ≤ 102) ∨
    (65 ≤ unit ∧ unit ≤ 70)))

theorem IsHexDigit.ascii {unit : UInt16} (h : IsHexDigit unit) : unit < 0x80 := by
  simp only [IsHexDigit, UInt16.le_iff_toNat_le, UInt16.reduceToNat] at h
  have hbound : unit.toNat < 128 := by omega
  exact UInt16.lt_iff_toNat_lt.mpr hbound

/-- On ASCII characters both sides know the same digits. -/
theorem digit_ascii {unit : UInt16} (h : unit < 0x80) :
    digit unit 16 = Linux.nibble unit.toUInt8 ∧ (0 ≤ digit unit 16 ↔ IsHexDigit unit) := by
  have hall : ∀ value : Fin 128, digit (UInt16.ofNat value) 16 =
      Linux.nibble (UInt16.ofNat value).toUInt8 ∧
      (0 ≤ digit (UInt16.ofNat value) 16 ↔ IsHexDigit (UInt16.ofNat value)) := by decide +kernel
  have hvalue := hall ⟨unit.toNat, UInt16.lt_iff_toNat_lt.mp h⟩
  rwa [UInt16.ofNat_toNat] at hvalue

theorem nibble_iff (c : UInt8) : 0 ≤ Linux.nibble c ↔ IsHexDigit c.toUInt16 := by
  have hall : ∀ value : Fin 256, 0 ≤ Linux.nibble (UInt8.ofNat value) ↔
      IsHexDigit (UInt8.ofNat value).toUInt16 := by decide +kernel
  have hvalue := hall ⟨c.toNat, c.toNat_lt⟩
  rwa [UInt8.ofNat_toNat] at hvalue

/-- The characters of a hexadecimal string are the bytes of its encoding. -/
theorem toUtf8_isHex {text : JString} (h : ∀ unit ∈ text, IsHexDigit unit) :
    toUtf8 text = text.map UInt16.toUInt8 := toUtf8_ascii fun unit hunit => (h unit hunit).ascii

/-- The encoding of a string consists of hexadecimal digits exactly if the string does. -/
theorem nibbles_toUtf8_iff (text : JString) (size : Nat) :
    ((toUtf8 text).length = 2 * size ∧ ∀ c ∈ toUtf8 text, 0 ≤ Linux.nibble c) ↔
      IsHex text size := by
  constructor
  · rintro ⟨hsize, hbytes⟩
    have hascii : ∀ unit ∈ text, unit < 0x80 := by
      apply ascii_of_toUtf8
      intro byte hbyte
      have hdigit := (nibble_iff byte).mp (hbytes byte hbyte)
      constructor
      · apply UInt8.lt_iff_toNat_lt.mpr
        rw [← UInt8.toNat_toUInt16]
        exact UInt16.lt_iff_toNat_lt.mp hdigit.ascii
      · rintro rfl
        exact absurd hdigit (by decide)
    rw [toUtf8_ascii hascii] at hsize hbytes
    refine ⟨by simpa using hsize, fun unit hunit => ?_⟩
    apply (digit_ascii (hascii unit hunit)).2.mp
    rw [(digit_ascii (hascii unit hunit)).1]
    exact hbytes _ (List.mem_map_of_mem hunit)
  · rintro ⟨hsize, hdigits⟩
    rw [toUtf8_isHex hdigits]
    refine ⟨by simpa using hsize, fun c hc => ?_⟩
    obtain ⟨unit, hunit, rfl⟩ := List.mem_map.mp hc
    rw [← (digit_ascii (hdigits unit hunit).ascii).1]
    exact (digit_ascii (hdigits unit hunit).ascii).2.mpr (hdigits unit hunit)

/-- The digits of a hexadecimal string have the same values on both sides. -/
theorem nibbles_toUtf8 {text : JString} (h : ∀ unit ∈ text, IsHexDigit unit) :
    nibbles (toUtf8 text) = text.map fun unit => (digit unit 16).toNat := by
  rw [toUtf8_isHex h, nibbles, List.map_map]
  apply List.map_congr_left
  intro unit hunit
  rw [(digit_ascii (h unit hunit).ascii).1]
  rfl

/-- What the phone makes of a hexadecimal string. -/
theorem decodeHex_isHex {text : JString} {size : Nat} (h : IsHex text size) :
    Android.decodeHex text = .ok (pairBytes (nibbles (toUtf8 text))) := by
  have hdigits : ∀ unit ∈ text, 0 ≤ digit unit 16 := fun unit hunit =>
    (digit_ascii (h.2 unit hunit).ascii).2.mpr (h.2 unit hunit)
  have heven : text.length % 2 = 0 := by
    have := h.1
    omega
  rw [decodeHex_digits text heven hdigits, nibbles_toUtf8 h.2]

end Agreement

section Encoding

/-- The two characters of a byte. -/
def hexPair (byte : UInt8) : Bytes :=
  [Linux.digits.getD (byte >>> 4).toNat 0, Linux.digits.getD (byte &&& 0x0f).toNat 0]

theorem hexPair_digits (byte : UInt8) :
    (∀ c ∈ hexPair byte, 0 ≤ Linux.nibble c) ∧ pairBytes (nibbles (hexPair byte)) = [byte] := by
  have hall : ∀ value : Fin 256, ((hexPair (UInt8.ofNat value)).all fun c => 0 ≤ Linux.nibble c) ∧
      pairBytes (nibbles (hexPair (UInt8.ofNat value))) = [UInt8.ofNat value] := by decide +kernel
  have hvalue := hall ⟨byte.toNat, byte.toNat_lt⟩
  rw [UInt8.ofNat_toNat] at hvalue
  exact ⟨fun c hc => of_decide_eq_true (List.all_eq_true.mp hvalue.1 c hc), hvalue.2⟩

theorem encodeHex_cons (byte : UInt8) (bytes : Bytes) :
    Linux.encodeHex (byte :: bytes) = hexPair byte ++ Linux.encodeHex bytes := rfl

theorem encodeHex_digits (bytes : Bytes) :
    (Linux.encodeHex bytes).length = 2 * bytes.length ∧
      (∀ c ∈ Linux.encodeHex bytes, 0 ≤ Linux.nibble c) ∧
      pairBytes (nibbles (Linux.encodeHex bytes)) = bytes := by
  induction bytes with
  | nil => exact ⟨rfl, by simp [Linux.encodeHex], rfl⟩
  | cons byte bytes ih =>
      obtain ⟨hlength, hdigits, hpairs⟩ := ih
      obtain ⟨hpair, hbyte⟩ := hexPair_digits byte
      rw [encodeHex_cons]
      refine ⟨?_, ?_, ?_⟩
      · rw [List.length_append, hlength, List.length_cons]
        simp only [hexPair, List.length_cons, List.length_nil]
        omega
      · intro c hc
        rcases List.mem_append.mp hc with hc | hc
        · exact hpair c hc
        · exact hdigits c hc
      · have hsplit : pairBytes (nibbles (hexPair byte ++ Linux.encodeHex bytes)) =
            pairBytes (nibbles (hexPair byte)) ++ pairBytes (nibbles (Linux.encodeHex bytes)) := rfl
        rw [hsplit, hbyte, hpairs]
        rfl

/-- The text of a byte string of ASCII characters. -/
def asciiText (bytes : Bytes) : JString := bytes.map UInt8.toUInt16

/-- What one side encodes both sides decode. -/
structure HexRoundTrip (bytes : Bytes) : Prop where
  phone : Android.decodeHex (asciiText (Linux.encodeHex bytes)) = .ok bytes
  controller : ∀ output : Bytes, output.length = bytes.length →
    Linux.decodeHex (Linux.encodeHex bytes) output bytes.length = (true, bytes)

theorem asciiText_isHex {bytes : Bytes} (h : ∀ c ∈ bytes, 0 ≤ Linux.nibble c) :
    ∀ unit ∈ asciiText bytes, IsHexDigit unit := by
  intro unit hunit
  obtain ⟨c, hc, rfl⟩ := List.mem_map.mp hunit
  exact (nibble_iff c).mp (h c hc)

theorem hexRoundTrip (bytes : Bytes) : HexRoundTrip bytes := by
  obtain ⟨hlength, hdigits, hpairs⟩ := encodeHex_digits bytes
  constructor
  · have hhex : IsHex (asciiText (Linux.encodeHex bytes)) bytes.length :=
      ⟨by rw [asciiText, List.length_map, hlength], asciiText_isHex hdigits⟩
    have hutf8 : toUtf8 (asciiText (Linux.encodeHex bytes)) = Linux.encodeHex bytes := by
      rw [toUtf8_isHex hhex.2, asciiText, List.map_map]
      exact List.map_id'' (fun c => by simp) _
    rw [decodeHex_isHex hhex, hutf8, hpairs]
  · intro output houtput
    obtain ⟨hiff, hbytes⟩ := decodeHex_controller (Linux.encodeHex bytes) output houtput
    have htrue := hiff.mpr ⟨hlength, hdigits⟩
    exact Prod.ext htrue ((hbytes htrue).trans hpairs)

end Encoding

section Strictness

/-- The decoders take exactly the pairs of hexadecimal digits, give the same bytes, and
the phone throws on every other string. -/
structure DecodesStrictly (text : JString) : Prop where
  phone : ∀ size, (∃ bytes, Android.decodeHex text = .ok bytes ∧ bytes.length = size) ↔
    IsHex text size
  controller : ∀ output : Bytes,
    (Linux.decodeHex (toUtf8 text) output output.length).1 = true ↔ IsHex text output.length
  same : ∀ (output bytes : Bytes), Android.decodeHex text = .ok bytes →
    (Linux.decodeHex (toUtf8 text) output output.length).1 = true →
    (Linux.decodeHex (toUtf8 text) output output.length).2 = bytes
  rejected : (∀ size, ¬ IsHex text size) → ∃ error, Android.decodeHex text = .error error

/-- The phone knows digits beyond ASCII, so decoding is strict exactly where these make
no difference. -/
theorem decodeHex_strict_iff (text : JString) :
    (DecodesStrictly text ∧ ∀ bytes, HexRoundTrip bytes) ↔
      text.length % 2 = 1 ∨ (∃ unit ∈ text, digit unit 16 < 0) ∨ ∀ unit ∈ text, unit < 0x80 := by
  constructor
  · rintro ⟨hstrict, _⟩
    by_contra hcondition
    rw [not_or, not_or] at hcondition
    obtain ⟨heven, hdigits, hascii⟩ := hcondition
    have hall : ∀ unit ∈ text, 0 ≤ digit unit 16 := by
      intro unit hunit
      exact Int.not_lt.mp fun hnegative => hdigits ⟨unit, hunit, hnegative⟩
    have hhex : IsHex text (text.length / 2) :=
      (hstrict.phone _).mp ((decodeHex_ok_iff text _).mpr ⟨by omega, hall⟩)
    exact hascii fun unit hunit => (hhex.2 unit hunit).ascii
  · intro hcondition
    have hphone : ∀ size, (∃ bytes, Android.decodeHex text = .ok bytes ∧ bytes.length = size) ↔
        IsHex text size := by
      intro size
      rw [decodeHex_ok_iff]
      constructor
      · rintro ⟨hsize, hdigits⟩
        rcases hcondition with hodd | ⟨unit, hunit, hnegative⟩ | hascii
        · omega
        · exact absurd (hdigits unit hunit) (Int.not_le.mpr hnegative)
        · exact ⟨hsize, fun unit hunit =>
            (digit_ascii (hascii unit hunit)).2.mp (hdigits unit hunit)⟩
      · rintro ⟨hsize, hdigits⟩
        exact ⟨hsize, fun unit hunit =>
          (digit_ascii (hdigits unit hunit).ascii).2.mpr (hdigits unit hunit)⟩
    refine ⟨⟨hphone, ?_, ?_, ?_⟩, hexRoundTrip⟩
    · intro output
      rw [← nibbles_toUtf8_iff]
      exact (decodeHex_controller (toUtf8 text) output rfl).1
    · intro output bytes hbytes htrue
      have hcontroller := decodeHex_controller (toUtf8 text) output rfl
      have hhex := (nibbles_toUtf8_iff text _).mp (hcontroller.1.mp htrue)
      rw [hcontroller.2 htrue]
      exact Except.ok.inj ((decodeHex_isHex hhex).symm.trans hbytes)
    · intro hnone
      cases hresult : Android.decodeHex text with
      | error error => exact ⟨error, rfl⟩
      | ok bytes => exact absurd ((hphone bytes.length).mp ⟨bytes, hresult, rfl⟩) (hnone _)

/-- Two Arabic digits are decoded by the phone and rejected by the controller. -/
theorem decodeHex_arabic : Android.decodeHex [0x660, 0x660] = .ok [0] ∧
    Linux.decodeHex (toUtf8 [0x660, 0x660]) [0] 1 = (false, [0]) ∧
    ¬ DecodesStrictly [0x660, 0x660] := by
  have hphone : Android.decodeHex [0x660, 0x660] = .ok [0] := by decide +kernel
  refine ⟨hphone, by decide +kernel, fun hstrict => ?_⟩
  have hhex : IsHex [0x660, 0x660] 1 := (hstrict.phone 1).mp ⟨[0], hphone, rfl⟩
  exact absurd (hhex.2 0x660 List.mem_cons_self) (by decide)

end Strictness

end OpenCam.Control
