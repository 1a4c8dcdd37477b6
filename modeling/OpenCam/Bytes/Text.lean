import OpenCam.Bytes.BigEndian

/-!
The string operations of a C++ program over byte strings: searching for a
character or a prefix, and cutting. Positions are indices and `npos` is
`none`. Each search comes with the decomposition of the string it reports.
-/

namespace Octets

/-- The bytes of a literal of single-byte characters. -/
def ascii (text : String) : Bytes := text.toList.map fun c => UInt8.ofNat c.toNat

/-- `text.find(character)`. -/
def find (text : Bytes) (character : UInt8) : Option Nat :=
  text.findIdx? (· == character)

/-- `text.rfind(character)`. -/
def rfind (text : Bytes) (character : UInt8) : Option Nat :=
  (text.reverse.findIdx? (· == character)).map fun back => text.length - 1 - back

/-- `text.rfind(pattern, position)`: the last occurrence that starts at or
before `position`. -/
def rfindFrom (text pattern : Bytes) : Nat → Option Nat
  | 0 => if pattern.isPrefixOf text then some 0 else none
  | position + 1 =>
      if pattern.isPrefixOf (text.drop (position + 1)) then some (position + 1)
      else rfindFrom text pattern position

/-- The part of a string that `c_str()` shows to a C function. -/
def cString (text : Bytes) : Bytes := text.takeWhile (· != 0)

/-- `('0' <= c && c <= '9') || ('a' <= c && c <= 'f')`. -/
def isLowerHex (character : UInt8) : Bool :=
  (48 ≤ character && character ≤ 57) || (97 ≤ character && character ≤ 102)

theorem find_eq_none {text : Bytes} {character : UInt8} :
    find text character = none ↔ character ∉ text := by
  unfold find
  rw [List.findIdx?_eq_none_iff]
  constructor
  · intro h hmem
    simpa using h character hmem
  · intro h other hother
    have hne : other ≠ character := by
      rintro rfl
      exact h hother
    simpa using hne

theorem find_eq_some {text : Bytes} {character : UInt8} {position : Nat}
    (h : find text character = some position) :
    ∃ front back, text = front ++ character :: back ∧ front.length = position ∧
      character ∉ front := by
  obtain ⟨hlt, hat, hbefore⟩ := List.findIdx?_eq_some_iff_getElem.mp h
  refine ⟨text.take position, text.drop (position + 1), ?_, ?_, ?_⟩
  · have hcharacter : text[position] = character := by simpa using hat
    rw [← hcharacter, ← List.drop_eq_getElem_cons hlt, List.take_append_drop]
  · rw [List.length_take]
    omega
  · intro hmem
    obtain ⟨i, hi, hget⟩ := List.mem_iff_getElem.mp hmem
    rw [List.length_take] at hi
    rw [List.getElem_take] at hget
    have := hbefore i (by omega)
    simp [hget] at this

theorem rfind_eq_some {text : Bytes} {character : UInt8} {position : Nat}
    (h : rfind text character = some position) :
    ∃ front back, text = front ++ character :: back ∧ front.length = position ∧
      character ∉ back := by
  unfold rfind at h
  obtain ⟨back, hback, hposition⟩ := Option.map_eq_some_iff.mp h
  obtain ⟨suffix, front, hreverse, hlength, hnot⟩ := find_eq_some (show find text.reverse _ = some back from hback)
  have htext : text = front.reverse ++ character :: suffix.reverse := by
    rw [← List.reverse_reverse text, hreverse]
    simp
  refine ⟨front.reverse, suffix.reverse, htext, ?_, by simpa using hnot⟩
  have htotal := congrArg List.length htext
  simp only [List.length_append, List.length_reverse, List.length_cons] at htotal
  rw [List.length_reverse]
  omega

theorem find_append {front back : Bytes} {character : UInt8} (h : character ∉ front) :
    find (front ++ character :: back) character = some front.length := by
  have hfront : front.findIdx? (· == character) = none := find_eq_none.mpr h
  rw [find, List.findIdx?_append, hfront]
  simp [List.findIdx?_cons]

theorem rfind_append {front back : Bytes} {character : UInt8} (h : character ∉ back) :
    rfind (front ++ character :: back) character = some front.length := by
  have hreverse : (front ++ character :: back).reverse =
      back.reverse ++ character :: front.reverse := by simp
  rw [rfind, hreverse]
  change (find _ _).map _ = _
  rw [find_append (by simpa using h)]
  simp

theorem rfindFrom_zero {text pattern : Bytes} :
    rfindFrom text pattern 0 = some 0 ↔ pattern <+: text := by
  unfold rfindFrom
  split
  · next h => simpa using h
  · next h => simpa using h

/-- The last occurrence of a character at or before a position. -/
theorem rfindFrom_eq_some {text : Bytes} {character : UInt8} {position found : Nat} :
    rfindFrom text [character] position = some found ↔
      found ≤ position ∧ text[found]? = some character ∧
        ∀ later, found < later → later ≤ position → text[later]? ≠ some character := by
  have hat : ∀ index, [character].isPrefixOf (text.drop index) = true ↔
      text[index]? = some character := by
    intro index
    rw [List.isPrefixOf_iff_prefix, ← List.head?_drop]
    cases text.drop index with
    | nil => simp
    | cons other rest => simp [eq_comm]
  induction position with
  | zero =>
      rw [rfindFrom]
      split
      · next h =>
          rw [← List.drop_zero (l := text), hat] at h
          constructor
          · rintro ⟨⟩
            exact ⟨le_refl _, h, fun later hlater hle => by omega⟩
          · rintro ⟨hle, _⟩
            rw [Nat.le_zero.mp hle]
      · next h =>
          rw [← List.drop_zero (l := text), hat] at h
          constructor
          · rintro ⟨⟩
          · rintro ⟨hle, hfound, _⟩
            rw [Nat.le_zero.mp hle] at hfound
            exact absurd hfound h
  | succ position ih =>
      rw [rfindFrom]
      split
      · next h =>
          rw [hat] at h
          constructor
          · rintro ⟨⟩
            exact ⟨le_refl _, h, fun later hlater hle => by omega⟩
          · rintro ⟨hle, _, hlast⟩
            by_contra hne
            have hbefore : found < position + 1 := by
              have : found ≠ position + 1 := fun heq => hne (congrArg some heq).symm
              omega
            exact hlast _ hbefore (le_refl _) h
      · next h =>
          rw [hat] at h
          refine ih.trans ?_
          constructor
          · rintro ⟨hle, hfound, hlast⟩
            refine ⟨Nat.le_succ_of_le hle, hfound, fun later hlater hle' => ?_⟩
            rcases Nat.le_succ_iff.mp hle' with hle'' | rfl
            · exact hlast later hlater hle''
            · exact h
          · rintro ⟨hle, hfound, hlast⟩
            have hne : found ≠ position + 1 := by
              rintro rfl
              exact h hfound
            exact ⟨by omega, hfound, fun later hlater hle' =>
              hlast later hlater (Nat.le_succ_of_le hle')⟩

end Octets
