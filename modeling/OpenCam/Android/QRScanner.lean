import Mathlib.Computability.RegularExpressions
import OpenCam.Control.Hex
import OpenCam.Jvm.Numbers

/-!
`QRScanner.kt`: what the phone takes for the text of a pairing code. The pattern of the
address is a regular expression, and `matches` asks whether it matches the whole string.
-/

namespace OpenCam.Android

open Octets Jvm Control

namespace QRScanner

/-- `[…]`. -/
def oneOf (units : JString) : RegularExpression UInt16 :=
  units.foldr (fun unit others => .char unit + others) 0

/-- `25[0-5]|2[0-4][0-9]|1?[0-9]{1,2}`. -/
def octetRegex : RegularExpression UInt16 :=
  let digit := oneOf (literal "0123456789")
  .char 50 * .char 53 * oneOf (literal "012345") +
    .char 50 * oneOf (literal "01234") * digit +
    (.char 49 + 1) * (digit * (digit + 1))

def addressRegex : RegularExpression UInt16 :=
  octetRegex * .char 46 * octetRegex * .char 46 * octetRegex * .char 46 * octetRegex

structure Result where
  address : JString
  port : Int
  pairingToken : JString
deriving DecidableEq, Repr

def parseResult (value : JString) : Option Result :=
  let splits := value.splitOn 124
  if splits.length ≠ 4 ∨ splits.getD 0 [] ≠ literal "OCAM1" then none
  else if !addressRegex.rmatch (splits.getD 1 []) then none
  else
    match toIntOrNull (splits.getD 2 []) with
    | none => none
    | some port =>
        if ¬ (1 ≤ port ∧ port ≤ 65535) then none
        else if (splits.getD 3 []).length ≠ 64 ∨
            (splits.getD 3 []).any fun unit => unit ∉ literal "0123456789abcdefABCDEF" then none
        else some ⟨splits.getD 1 [], port, splits.getD 3 []⟩

section Address

/-- A decimal digit, up to some last one. -/
def DigitUpTo (last : Nat) (unit : UInt16) : Prop := 48 ≤ unit.toNat ∧ unit.toNat ≤ last

instance (last : Nat) (unit : UInt16) : Decidable (DigitUpTo last unit) :=
  inferInstanceAs (Decidable (48 ≤ unit.toNat ∧ unit.toNat ≤ last))

/-- A decimal number from 0 to 255 of at most three digits. -/
structure IsOctet (text : JString) : Prop where
  short : 1 ≤ text.length ∧ text.length ≤ 3
  digits : ∀ unit ∈ text, DigitUpTo 57 unit
  value : text.foldl (fun value unit => 10 * value + (unit.toNat - 48)) 0 ≤ 255

/-- Four such numbers with dots between them. -/
def IsDottedQuad (text : JString) : Prop :=
  ∃ a b c d, text = a ++ 46 :: (b ++ 46 :: (c ++ 46 :: d)) ∧
    IsOctet a ∧ IsOctet b ∧ IsOctet c ∧ IsOctet d

theorem oneOf_rmatch_iff {units text : JString} :
    (oneOf units).rmatch text = true ↔ ∃ unit ∈ units, text = [unit] := by
  induction units with
  | nil => simp [oneOf]
  | cons unit units ih =>
      have hcons : oneOf (unit :: units) = .char unit + oneOf units := rfl
      rw [hcons, RegularExpression.add_rmatch_iff, RegularExpression.char_rmatch_iff, ih]
      simp

/-- A class of digits matches one of them. -/
theorem digit_of_rmatch {units text : JString} {last : Nat}
    (hunits : (units.all fun unit => 48 ≤ unit.toNat && unit.toNat ≤ last) = true)
    (h : (oneOf units).rmatch text = true) :
    ∃ unit, text = [unit] ∧ DigitUpTo last unit := by
  obtain ⟨unit, hunit, rfl⟩ := oneOf_rmatch_iff.mp h
  have hbounds := List.all_eq_true.mp hunits unit hunit
  rw [Bool.and_eq_true, decide_eq_true_eq, decide_eq_true_eq] at hbounds
  exact ⟨unit, rfl, hbounds⟩

theorem isOctet_one {c : UInt16} (hc : DigitUpTo 57 c) : IsOctet [c] where
  short := by simp
  digits := by simpa using hc
  value := by
    obtain ⟨_, hc⟩ := hc
    simp only [List.foldl_cons, List.foldl_nil]
    omega

theorem isOctet_two {b c : UInt16} (hb : DigitUpTo 57 b) (hc : DigitUpTo 57 c) : IsOctet [b, c] where
  short := by simp
  digits := by simpa using ⟨hb, hc⟩
  value := by
    obtain ⟨_, hb⟩ := hb
    obtain ⟨_, hc⟩ := hc
    simp only [List.foldl_cons, List.foldl_nil]
    omega

theorem isOctet_three {a b c : UInt16} (ha : DigitUpTo 57 a) (hb : DigitUpTo 57 b)
    (hc : DigitUpTo 57 c)
    (hvalue : 100 * (a.toNat - 48) + 10 * (b.toNat - 48) + (c.toNat - 48) ≤ 255) :
    IsOctet [a, b, c] where
  short := by simp
  digits := by simpa using ⟨ha, hb, hc⟩
  value := by
    simp only [List.foldl_cons, List.foldl_nil]
    omega

/-- Each alternative of the pattern of an octet stays below 256. -/
theorem isOctet_of_rmatch {text : JString} (h : octetRegex.rmatch text = true) : IsOctet text := by
  have hone : DigitUpTo 57 49 := by decide
  have htwo : DigitUpTo 57 50 := by decide
  have hfive : DigitUpTo 57 53 := by decide
  simp only [octetRegex, RegularExpression.add_rmatch_iff, RegularExpression.mul_rmatch_iff,
    RegularExpression.char_rmatch_iff, RegularExpression.one_rmatch_iff] at h
  rcases h with (⟨front, last, rfl, ⟨first, second, rfl, rfl, rfl⟩, hlast⟩ |
    ⟨front, last, rfl, ⟨first, second, rfl, rfl, hsecond⟩, hlast⟩) |
    ⟨front, back, rfl, hfront, ⟨first, second, rfl, hfirst, hsecond⟩⟩
  · obtain ⟨c, rfl, hlow, hhigh⟩ := @digit_of_rmatch _ _ 53 (by decide) hlast
    apply isOctet_three htwo hfive ⟨hlow, hhigh.trans (by decide)⟩
    have h50 : (50 : UInt16).toNat = 50 := rfl
    have h53 : (53 : UInt16).toNat = 53 := rfl
    omega
  · obtain ⟨b, rfl, hlow', hhigh'⟩ := @digit_of_rmatch _ _ 52 (by decide) hsecond
    obtain ⟨c, rfl, hlow, hhigh⟩ := @digit_of_rmatch _ _ 57 (by decide) hlast
    apply isOctet_three htwo ⟨hlow', hhigh'.trans (by decide)⟩ ⟨hlow, hhigh⟩
    have h50 : (50 : UInt16).toNat = 50 := rfl
    omega
  · obtain ⟨b, rfl, hb⟩ := @digit_of_rmatch _ _ 57 (by decide) hfirst
    rcases hfront with rfl | rfl
    · rcases hsecond with hsecond | rfl
      · obtain ⟨c, rfl, hc⟩ := @digit_of_rmatch _ _ 57 (by decide) hsecond
        apply isOctet_three hone hb hc
        have h49 : (49 : UInt16).toNat = 49 := rfl
        have hhigh := hb.2
        have hlast := hc.2
        omega
      · exact isOctet_two hone hb
    · rcases hsecond with hsecond | rfl
      · obtain ⟨c, rfl, hc⟩ := @digit_of_rmatch _ _ 57 (by decide) hsecond
        exact isOctet_two hb hc
      · exact isOctet_one hb

theorem isDottedQuad_of_rmatch {text : JString} (h : addressRegex.rmatch text = true) :
    IsDottedQuad text := by
  simp only [addressRegex, RegularExpression.mul_rmatch_iff, RegularExpression.char_rmatch_iff] at h
  obtain ⟨_, d, rfl, ⟨_, _, rfl, ⟨_, c, rfl, ⟨_, _, rfl, ⟨_, b, rfl, ⟨a, _, rfl, ha, rfl⟩, hb⟩, rfl⟩,
    hc⟩, rfl⟩, hd⟩ := h
  refine ⟨a, b, c, d, by simp, ?_, ?_, ?_, ?_⟩
  · exact isOctet_of_rmatch ha
  · exact isOctet_of_rmatch hb
  · exact isOctet_of_rmatch hc
  · exact isOctet_of_rmatch hd

end Address

section Fields

theorem isHexDigit_of_mem {unit : UInt16} (h : unit ∈ literal "0123456789abcdefABCDEF") :
    IsHexDigit unit := by
  have hall : ((literal "0123456789abcdefABCDEF").all fun unit => decide (IsHexDigit unit)) = true := by
    decide
  exact of_decide_eq_true (List.all_eq_true.mp hall unit h)

theorem eq_four {α : Type} {list : List (List α)} (h : list.length = 4) :
    list = [list.getD 0 [], list.getD 1 [], list.getD 2 [], list.getD 3 []] := by
  match list, h with
  | [_, _, _, _], _ => rfl

/-- What an accepted code consists of. -/
theorem parseResult_fields {value : JString} {result : Result}
    (h : parseResult value = some result) :
    ∃ port, value.splitOn 124 = [literal "OCAM1", result.address, port, result.pairingToken] ∧
      IsDottedQuad result.address ∧ toIntOrNull port = some result.port ∧
      1 ≤ result.port ∧ result.port ≤ 65535 ∧ IsHex result.pairingToken 32 := by
  unfold parseResult at h
  dsimp only at h
  split at h
  · cases h
  next hfields =>
  rw [not_or, not_not, not_not] at hfields
  split at h
  · cases h
  next haddress =>
  split at h
  · cases h
  next port hport =>
  split at h
  · cases h
  next hrange =>
  rw [not_not] at hrange
  split at h
  · cases h
  next htoken =>
  rw [not_or, not_not] at htoken
  cases h
  refine ⟨(value.splitOn 124).getD 2 [], ?_, ?_, hport, hrange.1, hrange.2, htoken.1, ?_⟩
  · rw [← hfields.2]
    exact eq_four hfields.1
  · apply isDottedQuad_of_rmatch
    simpa using haddress
  · intro unit hunit
    apply isHexDigit_of_mem
    by_contra hother
    exact htoken.2 (List.any_eq_true.mpr ⟨unit, hunit, by simpa using hother⟩)

end Fields

end QRScanner

end OpenCam.Android
