import OpenCam.Android.QRScanner
import OpenCam.Linux.Pairing

/-!
The pairing code from the controller's display to the phone: the phone reads the address,
the port and the secret that the controller has put in, and what it accepts is well
formed.
-/

namespace OpenCam.Control

open Octets Jvm Android

section Display

theorem asciiText_append (front back : Bytes) :
    asciiText (front ++ back) = asciiText front ++ asciiText back := List.map_append

/-- A text of ASCII characters is decoded character by character. -/
theorem decodeUtf8_ascii {bytes : Bytes} (h : ∀ byte ∈ bytes, byte < 0x80) :
    decodeUtf8 bytes = some (asciiText bytes) := by
  have hencode : ∀ byte ∈ bytes, String.utf8EncodeChar (Char.ofNat byte.toNat) = [byte] ∧
      toUtf16 (Char.ofNat byte.toNat) = [byte.toUInt16] := by
    intro byte hbyte
    have hsmall : byte.toNat < 0x80 := UInt8.lt_iff_toNat_lt.mp (h byte hbyte)
    have hvalue : (Char.ofNat byte.toNat).val.toNat = byte.toNat := toNat_ofNat (Or.inl (by omega))
    constructor
    · rw [utf8EncodeChar_one hvalue (by omega), UInt8.ofNat_toNat]
    · have hunit : (Char.ofNat byte.toNat).toNat = byte.toNat := hvalue
      rw [toUtf16, if_pos (by omega), hunit, ← UInt8.toNat_toUInt16, UInt16.ofNat_toNat]
  have hchars : (bytes.map fun byte => Char.ofNat byte.toNat).flatMap String.utf8EncodeChar =
      bytes := by
    rw [List.flatMap_map]
    calc bytes.flatMap (fun byte => String.utf8EncodeChar (Char.ofNat byte.toNat))
        = bytes.flatMap (fun byte => [byte]) :=
          List.flatMap_congr fun byte hbyte => (hencode byte hbyte).1
      _ = bytes := List.flatMap_singleton' bytes
  have hunits : (bytes.map fun byte => Char.ofNat byte.toNat).flatMap toUtf16 = asciiText bytes := by
    rw [List.flatMap_map, asciiText]
    calc bytes.flatMap (fun byte => toUtf16 (Char.ofNat byte.toNat))
        = bytes.flatMap (fun byte => [byte.toUInt16]) :=
          List.flatMap_congr fun byte hbyte => (hencode byte hbyte).2
      _ = bytes.map UInt8.toUInt16 := (List.map_eq_flatMap).symm
  rw [← hunits, ← decodeUtf8_encode, hchars]

end Display

section Address

theorem rmatch_append {first second : RegularExpression UInt16} {front back : JString}
    (hfront : first.rmatch front = true) (hback : second.rmatch back = true) :
    (first * second).rmatch (front ++ back) = true :=
  (RegularExpression.mul_rmatch_iff first second _).mpr ⟨front, back, rfl, hfront, hback⟩

theorem oneOf_rmatch {units : JString} {unit : UInt16} (h : unit ∈ units) :
    (QRScanner.oneOf units).rmatch [unit] = true := by
  induction units with
  | nil => cases h
  | cons head tail ih =>
      change (RegularExpression.char head + QRScanner.oneOf tail).rmatch [unit] = true
      rw [RegularExpression.add_rmatch_iff]
      rcases List.mem_cons.mp h with rfl | hmem
      · exact .inl ((RegularExpression.char_rmatch_iff _ _).mpr rfl)
      · exact .inr (ih hmem)

/-- A digit below the bound of a bracket expression that lists the digits below it. -/
theorem oneOf_digit {units : JString} (bound : Nat)
    (hunits : ∀ value : Fin bound, (48 + UInt8.ofNat value).toUInt16 ∈ units) {digit : UInt8}
    (h : digit.toNat < bound) :
    (QRScanner.oneOf units).rmatch (asciiText [48 + digit]) = true := by
  have hmem := hunits ⟨digit.toNat, h⟩
  rw [UInt8.ofNat_toNat] at hmem
  exact oneOf_rmatch hmem

/-- The digits that `inet_ntop` writes for an octet, and what bounds them. -/
theorem octetText_cases (octet : UInt8) : ∃ tens ones : UInt8, tens.toNat < 10 ∧ ones.toNat < 10 ∧
    (Linux.octetText octet = [48 + ones] ∨ Linux.octetText octet = [48 + tens, 48 + ones] ∨
      Linux.octetText octet = [49, 48 + tens, 48 + ones] ∨
      (tens.toNat < 5 ∧ Linux.octetText octet = [50, 48 + tens, 48 + ones]) ∨
      (ones.toNat < 6 ∧ Linux.octetText octet = [50, 53, 48 + ones])) := by
  have hless := octet.toNat_lt
  have hones : (octet % 10).toNat = octet.toNat % 10 := UInt8.toNat_mod _ _
  have htens : (octet / 10 % 10).toNat = octet.toNat / 10 % 10 := by
    rw [UInt8.toNat_mod, UInt8.toNat_div]
    rfl
  have hhundreds : (octet / 100).toNat = octet.toNat / 100 := UInt8.toNat_div _ _
  refine ⟨octet / 10 % 10, octet % 10, by omega, by omega, ?_⟩
  simp only [Linux.octetText, UInt8.le_iff_toNat_le, UInt8.reduceToNat]
  have hsize : octet.toNat < 10 ∨ (10 ≤ octet.toNat ∧ octet.toNat < 100) ∨
      (100 ≤ octet.toNat ∧ octet.toNat < 200) ∨ (200 ≤ octet.toNat ∧ octet.toNat < 250) ∨
      250 ≤ octet.toNat := by omega
  rcases hsize with hsmall | ⟨hlow, hhigh⟩ | ⟨hlow, hhigh⟩ | ⟨hlow, hhigh⟩ | hlow
  · rw [if_neg (by omega), if_neg (by omega)]
    exact .inl rfl
  · rw [if_neg (by omega), if_pos hlow]
    exact .inr (.inl rfl)
  · have hhundred : octet / 100 = 1 :=
      UInt8.toNat_inj.mp (hhundreds.trans (show octet.toNat / 100 = 1 by omega))
    rw [if_pos hlow, if_pos (by omega), hhundred]
    exact .inr (.inr (.inl rfl))
  · have hhundred : octet / 100 = 2 :=
      UInt8.toNat_inj.mp (hhundreds.trans (show octet.toNat / 100 = 2 by omega))
    rw [if_pos (by omega), if_pos (by omega), hhundred]
    exact .inr (.inr (.inr (.inl ⟨by omega, rfl⟩)))
  · have hhundred : octet / 100 = 2 :=
      UInt8.toNat_inj.mp (hhundreds.trans (show octet.toNat / 100 = 2 by omega))
    have hfifty : octet / 10 % 10 = 5 :=
      UInt8.toNat_inj.mp (htens.trans (show octet.toNat / 10 % 10 = 5 by omega))
    rw [if_pos (by omega), if_pos (by omega), hhundred, hfifty]
    exact .inr (.inr (.inr (.inr ⟨by omega, rfl⟩)))

/-- What `inet_ntop` writes for an octet, the pattern takes for one. -/
theorem octetRegex_octetText (octet : UInt8) :
    QRScanner.octetRegex.rmatch (asciiText (Linux.octetText octet)) = true := by
  obtain ⟨tens, ones, htens, hones, hcases⟩ := octetText_cases octet
  have hdigit : ∀ {digit : UInt8}, digit.toNat < 10 →
      (QRScanner.oneOf (literal "0123456789")).rmatch (asciiText [48 + digit]) = true :=
    oneOf_digit 10 (by decide)
  have hsecond : (QRScanner.oneOf (literal "0123456789") + 1).rmatch (asciiText [48 + ones]) =
      true := (RegularExpression.add_rmatch_iff _ _ _).mpr (.inl (hdigit hones))
  have hnone : (RegularExpression.char (49 : UInt16) + 1).rmatch (asciiText []) = true := by decide
  have htwo : (RegularExpression.char (50 : UInt16)).rmatch (asciiText [50]) = true := by decide
  rw [QRScanner.octetRegex, RegularExpression.add_rmatch_iff, RegularExpression.add_rmatch_iff]
  rcases hcases with htext | htext | htext | ⟨hbelow, htext⟩ | ⟨hbelow, htext⟩
  · have hnothing : (QRScanner.oneOf (literal "0123456789") + 1).rmatch (asciiText []) = true := by
      decide
    rw [htext]
    exact .inr (rmatch_append hnone (rmatch_append (hdigit hones) hnothing))
  · rw [htext]
    exact .inr (rmatch_append hnone (rmatch_append (hdigit htens) hsecond))
  · have hone : (RegularExpression.char (49 : UInt16) + 1).rmatch (asciiText [49]) = true := by
      decide
    rw [htext]
    exact .inr (rmatch_append hone (rmatch_append (hdigit htens) hsecond))
  · rw [htext]
    exact .inl (.inr (rmatch_append (rmatch_append htwo (oneOf_digit 5 (by decide) hbelow))
      (hdigit hones)))
  · have hfive : (RegularExpression.char (53 : UInt16)).rmatch (asciiText [53]) = true := by decide
    rw [htext]
    exact .inl (.inl (rmatch_append (rmatch_append htwo hfive) (oneOf_digit 6 (by decide) hbelow)))

theorem addressRegex_inetNtop (a b c d : UInt8) :
    QRScanner.addressRegex.rmatch (asciiText (Linux.inetNtop a b c d)) = true := by
  have hdot : (RegularExpression.char (46 : UInt16)).rmatch (asciiText [46]) = true := by decide
  have htext : asciiText (Linux.inetNtop a b c d) =
      asciiText (Linux.octetText a) ++ asciiText [46] ++ asciiText (Linux.octetText b) ++
        asciiText [46] ++ asciiText (Linux.octetText c) ++ asciiText [46] ++
        asciiText (Linux.octetText d) := by
    simp [Linux.inetNtop, asciiText]
  rw [htext, QRScanner.addressRegex]
  apply rmatch_append _ (octetRegex_octetText d)
  apply rmatch_append _ hdot
  apply rmatch_append _ (octetRegex_octetText c)
  apply rmatch_append _ hdot
  apply rmatch_append _ (octetRegex_octetText b)
  exact rmatch_append (octetRegex_octetText a) hdot

/-- The characters of the fields: letters, digits and dots, but no bar. -/
def IsFieldByte (byte : UInt8) : Prop := byte < 0x80 ∧ byte ≠ 124

instance : DecidablePred IsFieldByte := fun byte =>
  inferInstanceAs (Decidable (byte < 0x80 ∧ byte ≠ 124))

theorem isFieldByte_octetText (octet : UInt8) : ∀ byte ∈ Linux.octetText octet, IsFieldByte byte := by
  have hall : ∀ value : Fin 256, ((Linux.octetText (UInt8.ofNat value)).all
      fun byte => decide (IsFieldByte byte)) = true := by decide +kernel
  have hvalue := hall ⟨octet.toNat, octet.toNat_lt⟩
  rw [UInt8.ofNat_toNat] at hvalue
  exact fun byte hbyte => of_decide_eq_true (List.all_eq_true.mp hvalue byte hbyte)

theorem isFieldByte_inetNtop (a b c d : UInt8) :
    ∀ byte ∈ Linux.inetNtop a b c d, IsFieldByte byte := by
  have hdot : IsFieldByte 46 := by decide
  intro byte hbyte
  simp only [Linux.inetNtop, List.mem_append, List.mem_cons] at hbyte
  rcases hbyte with hbyte | rfl | hbyte | rfl | hbyte | rfl | hbyte
  · exact isFieldByte_octetText a byte hbyte
  · exact hdot
  · exact isFieldByte_octetText b byte hbyte
  · exact hdot
  · exact isFieldByte_octetText c byte hbyte
  · exact hdot
  · exact isFieldByte_octetText d byte hbyte

theorem isFieldByte_of_hex {byte : UInt8} (h : IsHexDigit byte.toUInt16) : IsFieldByte byte := by
  constructor
  · apply UInt8.lt_iff_toNat_lt.mpr
    rw [← UInt8.toNat_toUInt16]
    exact UInt16.lt_iff_toNat_lt.mp h.ascii
  · rintro rfl
    exact absurd h (by decide)

end Address

section RoundTrip

/-- Four fields without bars are told apart again. -/
theorem splitOn_four {first second third fourth : JString} (h1 : 124 ∉ first) (h2 : 124 ∉ second)
    (h3 : 124 ∉ third) (h4 : 124 ∉ fourth) :
    (first ++ 124 :: (second ++ 124 :: (third ++ 124 :: fourth))).splitOn 124 =
      [first, second, third, fourth] := by
  rw [List.splitOn_append_cons_self, List.splitOn_append_cons_self, List.splitOn_append_cons_self,
    List.splitOn_eq_singleton h1, List.splitOn_eq_singleton h2, List.splitOn_eq_singleton h3,
    List.splitOn_eq_singleton h4]
  rfl

theorem not_mem_asciiText {bytes : Bytes} (h : ∀ byte ∈ bytes, IsFieldByte byte) :
    124 ∉ asciiText bytes := by
  intro hmem
  obtain ⟨byte, hbyte, hbar⟩ := List.mem_map.mp hmem
  apply (h byte hbyte).2
  apply UInt8.toNat_inj.mp
  rw [← UInt8.toNat_toUInt16, hbar]
  rfl

theorem putInt_port : Octets.putInt Linux.SERVER_PORT = ascii "6969" := by
  have hdigits : Nat.digits 10 6969 = [9, 6, 9, 6] := by norm_num
  have hport : (6969 : Int).natAbs = 6969 := rfl
  rw [Linux.SERVER_PORT, Octets.putInt, if_neg (by decide), hport, putNat, if_neg (by decide), hdigits]
  decide

theorem mem_of_isHexDigit {unit : UInt16} (h : IsHexDigit unit) :
    unit ∈ literal "0123456789abcdefABCDEF" := by
  have hall : ∀ value : Fin 128, IsHexDigit (UInt16.ofNat value) →
      UInt16.ofNat value ∈ literal "0123456789abcdefABCDEF" := by decide +kernel
  have hvalue := hall ⟨unit.toNat, UInt16.lt_iff_toNat_lt.mp h.ascii⟩
  rw [UInt16.ofNat_toNat] at hvalue
  exact hvalue h

/-- The phone reads the code that the controller displays. -/
theorem parseResult_payload (a b c d : UInt8) (secret : Block 32) :
    decodeUtf8 (Linux.pairingPayload (Linux.inetNtop a b c d) secret) =
        some (asciiText (Linux.pairingPayload (Linux.inetNtop a b c d) secret)) ∧
      QRScanner.parseResult (asciiText (Linux.pairingPayload (Linux.inetNtop a b c d) secret)) =
        some ⟨asciiText (Linux.inetNtop a b c d), 6969, asciiText (Linux.encodeHex secret.val)⟩ := by
  obtain ⟨hlength, hdigits, _⟩ := encodeHex_digits secret.val
  have haddress := isFieldByte_inetNtop a b c d
  have htoken : ∀ byte ∈ Linux.encodeHex secret.val, IsFieldByte byte := fun byte hbyte =>
    isFieldByte_of_hex ((nibble_iff byte).mp (hdigits byte hbyte))
  have hpayload : Linux.pairingPayload (Linux.inetNtop a b c d) secret =
      ascii "OCAM1" ++ 124 :: (Linux.inetNtop a b c d ++ 124 ::
        (ascii "6969" ++ 124 :: Linux.encodeHex secret.val)) := by
    rw [Linux.pairingPayload, putInt_port]
    simp only [List.append_assoc]
    rfl
  have hmagic : ∀ byte ∈ ascii "OCAM1", IsFieldByte byte := by
    have hall : ((ascii "OCAM1").all fun byte => decide (IsFieldByte byte)) = true := by decide
    exact fun byte hbyte => of_decide_eq_true (List.all_eq_true.mp hall byte hbyte)
  have hport : ∀ byte ∈ ascii "6969", IsFieldByte byte := by
    have hall : ((ascii "6969").all fun byte => decide (IsFieldByte byte)) = true := by decide
    exact fun byte hbyte => of_decide_eq_true (List.all_eq_true.mp hall byte hbyte)
  have hbar : (124 : UInt8) < 0x80 := by decide
  have hascii : ∀ byte ∈ Linux.pairingPayload (Linux.inetNtop a b c d) secret, byte < 0x80 := by
    intro byte hbyte
    simp only [hpayload, List.mem_append, List.mem_cons] at hbyte
    rcases hbyte with hbyte | rfl | hbyte | rfl | hbyte | rfl | hbyte
    · exact (hmagic byte hbyte).1
    · exact hbar
    · exact (haddress byte hbyte).1
    · exact hbar
    · exact (hport byte hbyte).1
    · exact hbar
    · exact (htoken byte hbyte).1
  have hsplits : (asciiText (Linux.pairingPayload (Linux.inetNtop a b c d) secret)).splitOn 124 =
      [asciiText (ascii "OCAM1"), asciiText (Linux.inetNtop a b c d), asciiText (ascii "6969"),
        asciiText (Linux.encodeHex secret.val)] := by
    have hfields := splitOn_four (not_mem_asciiText hmagic) (not_mem_asciiText haddress)
      (not_mem_asciiText hport) (not_mem_asciiText htoken)
    rw [← hfields, hpayload]
    simp [asciiText]
  refine ⟨decodeUtf8_ascii hascii, ?_⟩
  have hname : asciiText (ascii "OCAM1") = literal "OCAM1" := by decide
  have hnumber : toIntOrNull (asciiText (ascii "6969")) = some 6969 := by decide +kernel
  have hsize : (asciiText (Linux.encodeHex secret.val)).length = 64 := by
    rw [asciiText, List.length_map, hlength, secret.property]
  have hhex : (asciiText (Linux.encodeHex secret.val)).any
      (fun unit => unit ∉ literal "0123456789abcdefABCDEF") = false := by
    rw [List.any_eq_false]
    intro unit hunit
    have hmem := mem_of_isHexDigit (asciiText_isHex hdigits unit hunit)
    simpa using hmem
  unfold QRScanner.parseResult
  simp only [hsplits, List.length_cons, List.length_nil, List.getD_cons_zero, List.getD_cons_succ,
    hname, addressRegex_inetNtop, hnumber, hsize, hhex]
  simp

/-- The phone gets the address, the port and the secret of the code that the controller
displays, and every code that it accepts has four well-formed fields. -/
theorem pairingQr :
    (∀ (a b c d : UInt8) (secret : Block 32), ∃ payload value result,
      Linux.showPairingQr (Linux.inetNtop a b c d) secret = ask (.displayPairingQr payload) ∧
      decodeUtf8 payload = some value ∧ QRScanner.parseResult value = some result ∧
      result.address = asciiText (Linux.inetNtop a b c d) ∧ result.port = 6969 ∧
      Android.decodeHex result.pairingToken = .ok secret.val) ∧
    ∀ value result, QRScanner.parseResult value = some result →
      (∃ port, value.splitOn 124 = [literal "OCAM1", result.address, port, result.pairingToken] ∧
        QRScanner.IsDottedQuad result.address ∧ toIntOrNull port = some result.port ∧
        1 ≤ result.port ∧ result.port ≤ 65535 ∧ IsHex result.pairingToken 32) ∧
      ∃ bytes, Android.decodeHex result.pairingToken = .ok bytes ∧ bytes.length = 32 := by
  constructor
  · intro a b c d secret
    obtain ⟨hvalue, hresult⟩ := parseResult_payload a b c d secret
    exact ⟨_, _, _, rfl, hvalue, hresult, rfl, rfl, (hexRoundTrip secret.val).phone⟩
  · intro value result hresult
    obtain ⟨port, hfields⟩ := QRScanner.parseResult_fields hresult
    refine ⟨⟨port, hfields⟩, ?_⟩
    obtain ⟨_, _, _, _, _, htoken⟩ := hfields
    refine ⟨_, decodeHex_isHex htoken, ?_⟩
    rw [pairBytes_length, nibbles_toUtf8 htoken.2, List.length_map, htoken.1]

end RoundTrip

end OpenCam.Control
