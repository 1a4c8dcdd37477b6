import OpenCam.Bytes.Reader
import OpenCam.Bytes.Utf8

/-!
`isValidUtf8` of `device_descriptor.cpp`, one pass of its outer loop at a
time, with every `bytes[i]` an access that can fault.
-/

namespace OpenCam.Linux

open Octets Octets.Reader
open String (utf8EncodeChar)

/-- The three masked comparisons on a lead byte: how many continuation bytes
it announces and its own bits of the code point. -/
def leadByte (first : UInt8) : Option (Nat × UInt32) :=
  if first &&& 0xe0 = 0xc0 then some (1, (first &&& 0x1f).toUInt32)
  else if first &&& 0xf0 = 0xe0 then some (2, (first &&& 0x0f).toUInt32)
  else if first &&& 0xf8 = 0xf0 then some (3, (first &&& 0x07).toUInt32)
  else none

/-- The inner loop over `continuation` bytes; `none` is its `return false`. -/
def continuationBytes (bytes : Bytes) :
    Nat → Nat → UInt32 → Except (Fault String) (Option (Nat × UInt32))
  | 0, i, codepoint => .ok (some (i, codepoint))
  | count + 1, i, codepoint =>
      match byteAt bytes i with
      | .error fault => .error fault
      | .ok next =>
          if next &&& 0xc0 ≠ 0x80 then .ok none
          else continuationBytes bytes count (i + 1)
            ((codepoint <<< 6) ||| (next &&& 0x3f).toUInt32)

/-- The checks after the inner loop: overlong forms, surrogates and values
past the last code point. -/
def outsideRange (continuation : Nat) (codepoint : UInt32) : Bool :=
  (continuation = 1 ∧ codepoint < 0x80) ∨
  (continuation = 2 ∧ codepoint < 0x800) ∨
  (continuation = 3 ∧ codepoint < 0x10000) ∨
  codepoint > 0x10ffff ∨
  (codepoint ≥ 0xd800 ∧ codepoint ≤ 0xdfff)

/-- One pass of `while (i < value.size())`: the next `i`, or `none` for
`return false`. -/
def utf8Sequence (bytes : Bytes) (i : Nat) : Except (Fault String) (Option Nat) :=
  match byteAt bytes i with
  | .error fault => .error fault
  | .ok first =>
      if first ≤ 0x7f then .ok (some (i + 1))
      else
        match leadByte first with
        | none => .ok none
        | some (continuation, codepoint) =>
            if i + 1 + continuation > bytes.length then .ok none
            else
              match continuationBytes bytes continuation (i + 1) codepoint with
              | .error fault => .error fault
              | .ok none => .ok none
              | .ok (some (i, codepoint)) =>
                  if outsideRange continuation codepoint then .ok none else .ok (some i)

/-- The outer loop. Every pass advances `i`, so `value.size()` passes reach
the end. -/
def utf8Loop (bytes : Bytes) : Nat → Nat → Except (Fault String) Bool
  | 0, _ => .ok true
  | passes + 1, i =>
      if i < bytes.length then
        match utf8Sequence bytes i with
        | .error fault => .error fault
        | .ok none => .ok false
        | .ok (some next) => utf8Loop bytes passes next
      else .ok true

def isValidUtf8 (value : Bytes) : Except (Fault String) Bool :=
  utf8Loop value value.length 0

section Masks

private theorem mask_eq_iff (byte : UInt8) :
    (byte &&& 0xe0 = 0xc0 ↔ byte.toNat / 32 = 6) ∧
    (byte &&& 0xf0 = 0xe0 ↔ byte.toNat / 16 = 14) ∧
    (byte &&& 0xf8 = 0xf0 ↔ byte.toNat / 8 = 30) ∧
    (byte &&& 0xc0 = 0x80 ↔ byte.toNat / 64 = 2) := by
  have htable : ∀ n < 256,
      (n &&& 0xe0 = 0xc0 ↔ n / 32 = 6) ∧ (n &&& 0xf0 = 0xe0 ↔ n / 16 = 14) ∧
      (n &&& 0xf8 = 0xf0 ↔ n / 8 = 30) ∧ (n &&& 0xc0 = 0x80 ↔ n / 64 = 2) := by
    decide +kernel
  simpa [← UInt8.toNat_inj] using htable byte.toNat byte.toNat_lt

private theorem mask_toNat (byte : UInt8) :
    (byte &&& 0x1f).toUInt32.toNat = byte.toNat % 32 ∧
    (byte &&& 0x0f).toUInt32.toNat = byte.toNat % 16 ∧
    (byte &&& 0x07).toUInt32.toNat = byte.toNat % 8 ∧
    (byte &&& 0x3f).toUInt32.toNat = byte.toNat % 64 := by
  refine ⟨?_, ?_, ?_, ?_⟩
  · simpa using Nat.and_two_pow_sub_one_eq_mod byte.toNat 5
  · simpa using Nat.and_two_pow_sub_one_eq_mod byte.toNat 4
  · simpa using Nat.and_two_pow_sub_one_eq_mod byte.toNat 3
  · simpa using Nat.and_two_pow_sub_one_eq_mod byte.toNat 6

/-- Appending the six bits of a continuation byte. -/
private theorem push_continuation (codepoint : UInt32) (next : UInt8)
    (hroom : codepoint.toNat < 2 ^ 26) :
    ((codepoint <<< 6) ||| (next &&& 0x3f).toUInt32).toNat =
      codepoint.toNat * 64 + next.toNat % 64 := by
  have hlow : next.toNat % 64 < 2 ^ 6 := Nat.mod_lt _ (by norm_num)
  rw [UInt32.toNat_or, UInt32.toNat_shiftLeft, (mask_toNat next).2.2.2,
    show (6 : UInt32).toNat % 32 = 6 from rfl, Nat.mod_eq_of_lt (by rw [Nat.shiftLeft_eq]; omega),
    ← Nat.shiftLeft_add_eq_or_of_lt hlow, Nat.shiftLeft_eq]

end Masks

section Sequence

variable {bytes : Bytes} {i : Nat}

private theorem byteAt_of_drop {first : UInt8} {rest : Bytes}
    (hdrop : bytes.drop i = first :: rest) :
    byteAt (ε := String) bytes i = .ok first ∧ bytes.drop (i + 1) = rest := by
  have hget : bytes[i]? = some first := by
    rw [← List.head?_drop, hdrop]
    rfl
  refine ⟨by rw [byteAt, hget], ?_⟩
  rw [← List.drop_drop, hdrop]
  rfl

/-- The code point the inner loop accumulates, without the word size. -/
private def tailValue (start : Nat) (tails : Bytes) : Nat :=
  tails.foldl (fun value next => value * 64 + next.toNat % 64) start

private theorem continuationBytes_eq (tails rest : Bytes) (i : Nat) (codepoint : UInt32)
    (hdrop : bytes.drop i = tails ++ rest)
    (hroom : (codepoint.toNat + 1) * 64 ^ tails.length ≤ 2 ^ 32) :
    ((∀ next ∈ tails, next.toNat / 64 = 2) →
      ∃ result, continuationBytes bytes tails.length i codepoint =
        .ok (some (i + tails.length, result)) ∧ result.toNat = tailValue codepoint.toNat tails) ∧
    ((¬ ∀ next ∈ tails, next.toNat / 64 = 2) →
      continuationBytes bytes tails.length i codepoint = .ok none) := by
  induction tails generalizing i codepoint with
  | nil => simp [continuationBytes, tailValue]
  | cons next tails ih =>
      obtain ⟨hbyte, hrest⟩ := byteAt_of_drop hdrop
      have hpow : 1 ≤ 64 ^ tails.length := Nat.one_le_pow _ _ (by norm_num)
      rw [List.length_cons, pow_succ] at hroom
      have hsmall : codepoint.toNat < 2 ^ 26 := by nlinarith
      have hpush := push_continuation codepoint next hsmall
      have hroom' : (((codepoint <<< 6) ||| (next &&& 0x3f).toUInt32).toNat + 1) *
          64 ^ tails.length ≤ 2 ^ 32 := by
        have hlow : next.toNat % 64 < 64 := Nat.mod_lt _ (by norm_num)
        rw [hpush]
        calc
          (codepoint.toNat * 64 + next.toNat % 64 + 1) * 64 ^ tails.length
              ≤ ((codepoint.toNat + 1) * 64) * 64 ^ tails.length := by gcongr; omega
          _ = (codepoint.toNat + 1) * (64 ^ tails.length * 64) := by ring
          _ ≤ 2 ^ 32 := hroom
      have hstep := ih (i + 1) _ hrest hroom'
      rw [List.length_cons, continuationBytes, hbyte]
      by_cases hnext : next.toNat / 64 = 2
      · have hmask : ¬ (next &&& 0xc0 ≠ 0x80) := by simpa using (mask_eq_iff next).2.2.2.mpr hnext
        simp only [hmask, ↓reduceIte, List.forall_mem_cons, hnext, true_and]
        rw [hpush] at hstep
        simpa [tailValue, Nat.add_assoc, Nat.add_comm 1] using hstep
      · have hmask : next &&& 0xc0 ≠ 0x80 := fun h => hnext ((mask_eq_iff next).2.2.2.mp h)
        simp [hmask, hnext]

private theorem leadByte_cases {first : UInt8} {continuation : Nat} {codepoint : UInt32}
    (h : leadByte first = some (continuation, codepoint)) :
    (continuation = 1 ∧ first.toNat / 32 = 6 ∧ codepoint.toNat = first.toNat % 32) ∨
    (continuation = 2 ∧ first.toNat / 16 = 14 ∧ codepoint.toNat = first.toNat % 16) ∨
    (continuation = 3 ∧ first.toNat / 8 = 30 ∧ codepoint.toNat = first.toNat % 8) := by
  obtain ⟨htwo, hthree, hfour, _⟩ := mask_eq_iff first
  obtain ⟨vtwo, vthree, vfour, _⟩ := mask_toNat first
  unfold leadByte at h
  split_ifs at h with h2 h3 h4 <;> cases h
  · exact Or.inl ⟨rfl, htwo.mp h2, vtwo⟩
  · exact Or.inr (Or.inl ⟨rfl, hthree.mp h3, vthree⟩)
  · exact Or.inr (Or.inr ⟨rfl, hfour.mp h4, vfour⟩)

private theorem leadByte_of_count {first : UInt8} {count : Nat}
    (h : (count = 1 ∧ first.toNat / 32 = 6) ∨ (count = 2 ∧ first.toNat / 16 = 14) ∨
      (count = 3 ∧ first.toNat / 8 = 30)) :
    ∃ codepoint, leadByte first = some (count, codepoint) ∧
      codepoint.toNat = first.toNat % (64 >>> count) := by
  obtain ⟨htwo, hthree, hfour, _⟩ := mask_eq_iff first
  obtain ⟨vtwo, vthree, vfour, _⟩ := mask_toNat first
  unfold leadByte
  simp only [htwo, hthree, hfour]
  rcases h with ⟨rfl, hf⟩ | ⟨rfl, hf⟩ | ⟨rfl, hf⟩
  · exact ⟨_, by rw [if_pos hf], vtwo⟩
  · exact ⟨_, by rw [if_neg (by omega), if_pos hf], vthree⟩
  · exact ⟨_, by rw [if_neg (by omega), if_neg (by omega), if_pos hf], vfour⟩

private theorem outsideRange_iff (continuation : Nat) (codepoint : UInt32) :
    outsideRange continuation codepoint = true ↔
      (continuation = 1 ∧ codepoint.toNat < 0x80) ∨
      (continuation = 2 ∧ codepoint.toNat < 0x800) ∨
      (continuation = 3 ∧ codepoint.toNat < 0x10000) ∨
      0x10ffff < codepoint.toNat ∨
      (0xd800 ≤ codepoint.toNat ∧ codepoint.toNat ≤ 0xdfff) := by
  simp [outsideRange, UInt32.lt_iff_toNat_lt, UInt32.le_iff_toNat_le]

/-- A pass over a lead byte that announces `tails`: the sequence is taken
exactly when all of them are continuation bytes and the code point is in
range. -/
private theorem utf8Sequence_multi {first : UInt8} (tails rest : Bytes) {codepoint : UInt32}
    (hdrop : bytes.drop i = first :: (tails ++ rest)) (hfirst : ¬ first ≤ 0x7f)
    (hlead : leadByte first = some (tails.length, codepoint)) :
    ((∀ next ∈ tails, next.toNat / 64 = 2) →
      ∃ result : UInt32, result.toNat = tailValue codepoint.toNat tails ∧
        utf8Sequence bytes i =
          .ok (if outsideRange tails.length result then none else some (i + 1 + tails.length))) ∧
    ((¬ ∀ next ∈ tails, next.toNat / 64 = 2) → utf8Sequence bytes i = .ok none) := by
  obtain ⟨hbyte, hrest⟩ := byteAt_of_drop hdrop
  have hlength : ¬ i + 1 + tails.length > bytes.length := by
    have h := congrArg List.length hdrop
    simp only [List.length_drop, List.length_cons, List.length_append] at h
    omega
  have hroom : (codepoint.toNat + 1) * 64 ^ tails.length ≤ 2 ^ 32 := by
    have hlow := first.toNat_lt
    rcases leadByte_cases hlead with ⟨hn, _, hv⟩ | ⟨hn, _, hv⟩ | ⟨hn, _, hv⟩ <;>
      rw [hn] <;> norm_num <;> omega
  have hloop := continuationBytes_eq tails rest (i + 1) codepoint hrest hroom
  simp only [utf8Sequence, hbyte, hfirst, hlead, hlength, ↓reduceIte]
  refine ⟨fun hall => ?_, fun hnot => ?_⟩
  · obtain ⟨result, hresult, hvalue⟩ := hloop.1 hall
    refine ⟨result, hvalue, ?_⟩
    rw [hresult]
    dsimp only
    split <;> rfl
  · rw [hloop.2 hnot]

/-- A pass never reads outside the string. -/
private theorem utf8Sequence_total (hi : i < bytes.length) :
    ∃ result, utf8Sequence bytes i = .ok result := by
  have hdrop : bytes.drop i = bytes[i] :: bytes.drop (i + 1) := (List.drop_eq_getElem_cons hi)
  obtain ⟨hbyte, hrest⟩ := byteAt_of_drop hdrop
  by_cases hfirst : bytes[i] ≤ 0x7f
  · exact ⟨some (i + 1), by simp only [utf8Sequence, hbyte, hfirst, ↓reduceIte]⟩
  cases hlead : leadByte bytes[i] with
  | none => exact ⟨none, by simp only [utf8Sequence, hbyte, hfirst, hlead, ↓reduceIte]⟩
  | some pair =>
      obtain ⟨count, codepoint⟩ := pair
      by_cases hshort : i + 1 + count > bytes.length
      · exact ⟨none, by simp only [utf8Sequence, hbyte, hfirst, hlead, hshort, ↓reduceIte]⟩
      · have hcount : ((bytes.drop (i + 1)).take count).length = count := by
          rw [List.length_take, List.length_drop]
          omega
        have hmulti := utf8Sequence_multi ((bytes.drop (i + 1)).take count)
          ((bytes.drop (i + 1)).drop count)
          (by rw [List.take_append_drop]; exact hdrop) hfirst (by rw [hcount]; exact hlead)
        by_cases hall : ∀ next ∈ (bytes.drop (i + 1)).take count, next.toNat / 64 = 2
        · obtain ⟨_, _, h⟩ := hmulti.1 hall
          exact ⟨_, h⟩
        · exact ⟨_, hmulti.2 hall⟩

/-- A pass over the encoding of a scalar value takes exactly that encoding. -/
private theorem utf8Sequence_char (c : Char) (hc : utf8EncodeChar c <+: bytes.drop i) :
    utf8Sequence bytes i = .ok (some (i + (utf8EncodeChar c).length)) := by
  obtain ⟨rest, hrest⟩ := hc
  obtain ⟨value, hvalue⟩ : ∃ value, c.val.toNat = value := ⟨_, rfl⟩
  have hvalid := char_value_valid c
  rw [hvalue] at hvalid
  -- The encodings of two, three and four bytes differ only in the lead byte and the range.
  have hmulti : ∀ (first : UInt8) (tails : Bytes),
      utf8EncodeChar c = first :: tails → 0x7f < first.toNat →
      ((tails.length = 1 ∧ first.toNat / 32 = 6) ∨ (tails.length = 2 ∧ first.toNat / 16 = 14) ∨
        (tails.length = 3 ∧ first.toNat / 8 = 30)) →
      (∀ next ∈ tails, next.toNat / 64 = 2) →
      tailValue (first.toNat % (64 >>> tails.length)) tails = value →
      (tails.length = 1 → 0x80 ≤ value) → (tails.length = 2 → 0x800 ≤ value) →
      (tails.length = 3 → 0x10000 ≤ value) →
      utf8Sequence bytes i = .ok (some (i + (utf8EncodeChar c).length)) := by
    intro first tails hencode hfirst hcount htails htail hone htwo hthree
    obtain ⟨codepoint, hlead, hcodepoint⟩ := leadByte_of_count hcount
    have hpass := utf8Sequence_multi tails rest (by rw [← hrest, hencode]; rfl)
      (by simpa [UInt8.le_iff_toNat_le] using hfirst) hlead
    obtain ⟨result, hresult, hpass⟩ := hpass.1 htails
    rw [hcodepoint, htail] at hresult
    have hrange : ¬ outsideRange tails.length result = true := by
      rw [outsideRange_iff, hresult]
      omega
    rw [hpass, if_neg hrange, hencode, List.length_cons]
    congr 2
    omega
  rcases Nat.lt_or_ge 0x7f value with h1 | h1
  · rcases Nat.lt_or_ge 0x7ff value with h2 | h2
    · rcases Nat.lt_or_ge 0xffff value with h3 | h3
      · refine hmulti _ _ (utf8EncodeChar_four hvalue h3) ?_ ?_ ?_ ?_ ?_ ?_ ?_ <;>
          simp [tailValue] <;> omega
      · refine hmulti _ _ (utf8EncodeChar_three hvalue h2 h3) ?_ ?_ ?_ ?_ ?_ ?_ ?_ <;>
          simp [tailValue] <;> omega
    · refine hmulti _ _ (utf8EncodeChar_two hvalue h1 h2) ?_ ?_ ?_ ?_ ?_ ?_ ?_ <;>
        simp [tailValue] <;> omega
  · rw [utf8EncodeChar_one hvalue h1] at hrest ⊢
    obtain ⟨hbyte, _⟩ := byteAt_of_drop hrest.symm
    have hfirst : UInt8.ofNat value ≤ 0x7f := by
      rw [UInt8.le_iff_toNat_le]
      simp
      omega
    simp only [utf8Sequence, hbyte, hfirst, ↓reduceIte, List.length_singleton]

/-- Whatever a pass takes is the encoding of a scalar value. -/
private theorem utf8Sequence_sound {next : Nat} (hi : i < bytes.length)
    (h : utf8Sequence bytes i = .ok (some next)) :
    ∃ c, utf8EncodeChar c <+: bytes.drop i ∧ next = i + (utf8EncodeChar c).length := by
  have hdrop : bytes.drop i = bytes[i] :: bytes.drop (i + 1) := (List.drop_eq_getElem_cons hi)
  obtain ⟨hbyte, -⟩ := byteAt_of_drop hdrop
  obtain ⟨first, hfirst⟩ : ∃ first, bytes[i] = first := ⟨_, rfl⟩
  rw [hfirst] at hdrop hbyte
  have hbound := first.toNat_lt
  by_cases hone : first ≤ 0x7f
  · obtain ⟨c, hc⟩ := exists_char first.toNat
      (Or.inl (by rw [UInt8.le_iff_toNat_le] at hone; simp at hone; omega))
    have hencode := utf8EncodeChar_one hc (by simpa [UInt8.le_iff_toNat_le] using hone)
    simp only [utf8Sequence, hbyte, hone, ↓reduceIte, Except.ok.injEq, Option.some.injEq] at h
    refine ⟨c, ?_, ?_⟩
    · rw [hencode, hdrop, UInt8.ofNat_toNat]
      exact ⟨_, rfl⟩
    · rw [hencode, ← h]
      rfl
  cases hlead : leadByte first with
  | none => simp [utf8Sequence, hbyte, hone, hlead] at h
  | some pair =>
      obtain ⟨count, codepoint⟩ := pair
      by_cases hshort : i + 1 + count > bytes.length
      · simp [utf8Sequence, hbyte, hone, hlead, hshort] at h
      obtain ⟨tails, htailsDef⟩ : ∃ tails, tails = (bytes.drop (i + 1)).take count := ⟨_, rfl⟩
      have hcount : tails.length = count := by
        rw [htailsDef, List.length_take, List.length_drop]
        omega
      have hsplit : bytes.drop i = first :: (tails ++ (bytes.drop (i + 1)).drop count) := by
        rw [hdrop, htailsDef, List.take_append_drop]
      rw [← hcount] at hlead
      have hpass := utf8Sequence_multi _ _ hsplit hone hlead
      by_cases htails : ∀ next ∈ tails, next.toNat / 64 = 2
      · obtain ⟨result, hresult, hpass⟩ := hpass.1 htails
        rw [h] at hpass
        split at hpass
        · cases hpass
        · next hrange =>
            rw [outsideRange_iff, hresult] at hrange
            have hnext : next = i + 1 + tails.length := by simpa using hpass
            have hstart : first :: tails <+: bytes.drop i := ⟨_, by rw [hsplit]; rfl⟩
            obtain ⟨c, hc⟩ := exists_char (tailValue codepoint.toNat tails) (by omega)
            suffices hencode : utf8EncodeChar c = first :: tails by
              refine ⟨c, by rwa [hencode], ?_⟩
              rw [hencode, hnext, List.length_cons]
              omega
            rcases leadByte_cases hlead with ⟨hn, hclass, hv⟩ | ⟨hn, hclass, hv⟩ | ⟨hn, hclass, hv⟩
            · obtain ⟨a, rfl⟩ := List.length_eq_one_iff.mp hn
              have ha := htails a (by simp)
              rw [utf8EncodeChar_two hc (by omega) (by simp [tailValue]; omega)]
              simp only [tailValue, List.foldl_cons, List.foldl_nil, List.cons.injEq,
                ← UInt8.toNat_inj, UInt8.toNat_ofNat', and_true]
              omega
            · obtain ⟨a, b, rfl⟩ := List.length_eq_two.mp hn
              have ha := htails a (by simp)
              have hb := htails b (by simp)
              rw [utf8EncodeChar_three hc (by omega) (by simp [tailValue]; omega)]
              simp only [tailValue, List.foldl_cons, List.foldl_nil, List.cons.injEq,
                ← UInt8.toNat_inj, UInt8.toNat_ofNat', and_true]
              omega
            · obtain ⟨a, b, d, rfl⟩ := List.length_eq_three.mp hn
              have ha := htails a (by simp)
              have hb := htails b (by simp)
              have hd := htails d (by simp)
              rw [utf8EncodeChar_four hc (by omega)]
              simp only [tailValue, List.foldl_cons, List.foldl_nil, List.cons.injEq,
                ← UInt8.toNat_inj, UInt8.toNat_ofNat', and_true]
              omega
      · have hrefused := hpass.2 htails
        rw [h] at hrefused
        cases hrefused

end Sequence

/-- `isValidUtf8` never reads past its string and accepts exactly the
concatenations of encoded scalar values. -/
theorem isValidUtf8_spec (value : Bytes) :
    ∃ valid, isValidUtf8 value = .ok valid ∧ (valid = true ↔ WellFormedUtf8 value) := by
  have hloop : ∀ passes i, value.length ≤ passes + i →
      ∃ valid, utf8Loop value passes i = .ok valid ∧
        (valid = true ↔ WellFormedUtf8 (value.drop i)) := by
    intro passes
    induction passes with
    | zero =>
        intro i hi
        refine ⟨true, rfl, ?_⟩
        rw [List.drop_eq_nil_of_le (by omega)]
        simp [wellFormedUtf8_nil]
    | succ passes ih =>
        intro i hi
        by_cases hmore : i < value.length
        · have hne : value.drop i ≠ [] := by
            simpa using hmore
          obtain ⟨result, hresult⟩ := utf8Sequence_total hmore
          cases result with
          | none =>
              refine ⟨false, by simp [utf8Loop, hmore, hresult], ?_⟩
              rw [wellFormedUtf8_iff_split hne]
              constructor
              · intro h
                cases h
              · rintro ⟨c, hstart, _⟩
                rw [utf8Sequence_char c hstart] at hresult
                cases hresult
          | some next =>
              obtain ⟨c, hstart, hnext⟩ := utf8Sequence_sound hmore hresult
              have hadvance : 0 < (utf8EncodeChar c).length :=
                List.length_pos_of_ne_nil (utf8EncodeChar_ne_nil c)
              obtain ⟨valid, hvalid, hiff⟩ := ih next (by omega)
              refine ⟨valid, by simp [utf8Loop, hmore, hresult, hvalid], ?_⟩
              rw [hiff, wellFormedUtf8_iff_split hne, hnext, ← List.drop_drop]
              constructor
              · exact fun h => ⟨c, hstart, h⟩
              · rintro ⟨c', hstart', h⟩
                have hsame := hresult.symm.trans (utf8Sequence_char c' hstart')
                simp only [Except.ok.injEq, Option.some.injEq] at hsame
                rwa [show (utf8EncodeChar c).length = (utf8EncodeChar c').length by omega]
        · refine ⟨true, by simp [utf8Loop, hmore], ?_⟩
          rw [List.drop_eq_nil_of_le (by omega)]
          simp [wellFormedUtf8_nil]
  have hstart := hloop value.length 0 (by omega)
  rwa [List.drop_zero] at hstart

end OpenCam.Linux
