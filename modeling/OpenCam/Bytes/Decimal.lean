import Mathlib.Data.List.TakeWhile
import Mathlib.Data.Nat.Digits.Lemmas
import OpenCam.Bytes.Text

/-!
Decimal numbers as a C++ program prints an `int` to a stream and reads it back
with `atoi`, which saturates.
-/

namespace Octets

def isDigit (character : UInt8) : Bool := 48 ≤ character && character ≤ 57

/-- `isspace` in the C locale. -/
def isSpace (character : UInt8) : Bool :=
  character == 32 || (9 ≤ character && character ≤ 13)

def putNat (value : Nat) : Bytes :=
  if value = 0 then [48]
  else (Nat.digits 10 value).reverse.map fun digit => UInt8.ofNat (48 + digit)

/-- `stream << value`. -/
def putInt (value : Int) : Bytes :=
  if value < 0 then 45 :: putNat value.natAbs else putNat value.natAbs

/-- The values of a C++ `int`. -/
def IsInt (value : Int) : Prop := -2 ^ 31 ≤ value ∧ value < 2 ^ 31

instance (value : Int) : Decidable (IsInt value) :=
  inferInstanceAs (Decidable (-2 ^ 31 ≤ value ∧ value < 2 ^ 31))

def saturate (value : Int) : Int := max (-2 ^ 31) (min value (2 ^ 31 - 1))

/-- The number that the leading digits spell. -/
def digitsValue (text : Bytes) : Nat :=
  (text.takeWhile isDigit).foldl (fun value digit => 10 * value + (digit.toNat - 48)) 0

/-- `std::atoi(text.c_str())`. -/
def atoi (text : Bytes) : Int :=
  let number := text.dropWhile isSpace
  if number.head? = some 45 then saturate (-digitsValue number.tail)
  else if number.head? = some 43 then saturate (digitsValue number.tail)
  else saturate (digitsValue number)

theorem atoi_isInt (text : Bytes) : IsInt (atoi text) := by
  have hsaturate : ∀ value : Int, IsInt (saturate value) := by
    intro value
    unfold IsInt saturate
    omega
  unfold atoi
  dsimp only
  split
  · apply hsaturate
  · split
    · apply hsaturate
    · apply hsaturate

theorem saturate_eq {value : Int} (h : IsInt value) : saturate value = value := by
  unfold IsInt at h
  unfold saturate
  omega

theorem digit_toNat {digit : Nat} (h : digit < 10) :
    (UInt8.ofNat (48 + digit)).toNat = 48 + digit := by
  rw [UInt8.toNat_ofNat']
  omega

theorem isDigit_iff {character : UInt8} :
    isDigit character = true ↔ 48 ≤ character.toNat ∧ character.toNat ≤ 57 := by
  simp [isDigit, UInt8.le_iff_toNat_le]

theorem isDigit_of_mem_putNat {value : Nat} {character : UInt8} (h : character ∈ putNat value) :
    isDigit character = true := by
  rw [isDigit_iff]
  unfold putNat at h
  split at h
  · rw [List.mem_singleton.mp h]
    decide
  · obtain ⟨digit, hdigit, rfl⟩ := List.mem_map.mp h
    have hlt : digit < 10 := Nat.digits_lt_base (by omega) (List.mem_reverse.mp hdigit)
    rw [digit_toNat hlt]
    omega

theorem putNat_ne_nil (value : Nat) : putNat value ≠ [] := by
  unfold putNat
  split
  · exact List.cons_ne_nil _ _
  · next h => simpa [Nat.digits_ne_nil_iff_ne_zero] using h

theorem digitsValue_putNat (value : Nat) : digitsValue (putNat value) = value := by
  have hall : (putNat value).takeWhile isDigit = putNat value :=
    List.takeWhile_eq_self_iff.mpr fun character h => isDigit_of_mem_putNat h
  rw [digitsValue, hall, putNat]
  split
  · next h =>
      rw [h]
      decide
  · have hfold : ∀ digits : List Nat, (∀ digit ∈ digits, digit < 10) →
        digits.foldr (fun digit value => 10 * value + ((UInt8.ofNat (48 + digit)).toNat - 48)) 0 =
          Nat.ofDigits 10 digits := by
      intro digits
      induction digits with
      | nil => intro _; rfl
      | cons digit digits ih =>
          intro hdigits
          rw [List.forall_mem_cons] at hdigits
          rw [List.foldr_cons, ih hdigits.2, digit_toNat hdigits.1, Nat.ofDigits_cons]
          omega
    rw [List.foldl_map, List.foldl_reverse,
      hfold _ fun digit h => Nat.digits_lt_base (by omega) h, Nat.ofDigits_digits]

theorem mem_putInt {value : Int} {character : UInt8} (h : character ∈ putInt value) :
    character = 45 ∨ isDigit character = true := by
  unfold putInt at h
  split at h
  · rcases List.mem_cons.mp h with rfl | h
    · exact Or.inl rfl
    · exact Or.inr (isDigit_of_mem_putNat h)
  · exact Or.inr (isDigit_of_mem_putNat h)

/-- A printed number ends in a digit. -/
theorem getLast_putInt (value : Int) :
    ∃ character, (putInt value).getLast? = some character ∧ isDigit character = true := by
  have hnat : ∃ character, (putNat value.natAbs).getLast? = some character ∧
      isDigit character = true :=
    ⟨_, List.getLast?_eq_some_getLast (putNat_ne_nil _),
      isDigit_of_mem_putNat (List.getLast_mem (putNat_ne_nil _))⟩
  unfold putInt
  split
  · obtain ⟨character, hlast, hdigit⟩ := hnat
    refine ⟨character, ?_, hdigit⟩
    rw [List.getLast?_cons, hlast]
    rfl
  · exact hnat

/-- What is printed is read back. -/
theorem atoi_putInt {value : Int} (h : IsInt value) : atoi (putInt value) = value := by
  have hspace : (putInt value).dropWhile isSpace = putInt value := by
    cases hput : putInt value with
    | nil => rfl
    | cons character rest =>
        have hmem : character ∈ putInt value := hput ▸ List.mem_cons_self
        have hnot : isSpace character = false := by
          rcases mem_putInt hmem with rfl | hdigit
          · decide
          · rw [isDigit_iff] at hdigit
            simp [isSpace, ← UInt8.toNat_inj, UInt8.le_iff_toNat_le]
            omega
        rw [List.dropWhile_cons, if_neg (by simp [hnot])]
  unfold atoi
  rw [hspace]
  by_cases hneg : value < 0
  · have hput : putInt value = 45 :: putNat value.natAbs := if_pos hneg
    have hvalue : -(value.natAbs : Int) = value := by omega
    simp only [hput, List.head?_cons, if_true, List.tail_cons, digitsValue_putNat, hvalue]
    exact saturate_eq h
  · have hput : putInt value = putNat value.natAbs := if_neg hneg
    have hvalue : (value.natAbs : Int) = value := by omega
    have hhead : ∀ sign : UInt8, isDigit sign = false →
        (putNat value.natAbs).head? ≠ some sign := by
      intro sign hsign hhead
      have hmem := List.mem_of_mem_head? hhead
      rw [isDigit_of_mem_putNat hmem] at hsign
      cases hsign
    simp only [hput, if_neg (hhead 45 rfl), if_neg (hhead 43 rfl), digitsValue_putNat, hvalue]
    exact saturate_eq h

end Octets
