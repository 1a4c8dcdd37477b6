import Mathlib.Tactic

/-!
Fixed-width big-endian numbers over lists of octets. `beBytes` writes a
number most significant octet first, `beNat` reads one back; at a fixed
width each undoes the other. The section on machine words relates the
shift-and-or loops that programs write to the same two functions.
-/

namespace Octets

abbrev Bytes := List UInt8

/-- A byte array whose length is part of its type. -/
abbrev Block (n : Nat) := {bytes : Bytes // bytes.length = n}

/-- The number whose big-endian octets are `bytes`. -/
def beNat (bytes : Bytes) : Nat :=
  bytes.foldl (fun value byte => value * 256 + byte.toNat) 0

/-- The `width` low octets of `value`, most significant first. -/
def beBytes : Nat → Nat → Bytes
  | 0, _ => []
  | width + 1, value => UInt8.ofNat (value / 256 ^ width) :: beBytes width value

@[simp] theorem beBytes_length (width value : Nat) :
    (beBytes width value).length = width := by
  induction width with
  | zero => rfl
  | succ width ih => simp [beBytes, ih]

private theorem foldl_shift (bytes : Bytes) (start : Nat) :
    bytes.foldl (fun value byte => value * 256 + byte.toNat) start =
      start * 256 ^ bytes.length + beNat bytes := by
  induction bytes generalizing start with
  | nil => simp [beNat]
  | cons byte rest ih =>
      simp only [beNat, List.foldl_cons, List.length_cons]
      rw [ih (start * 256 + byte.toNat), ih (0 * 256 + byte.toNat)]
      ring

@[simp] theorem beNat_nil : beNat [] = 0 := rfl

theorem beNat_cons (byte : UInt8) (rest : Bytes) :
    beNat (byte :: rest) = byte.toNat * 256 ^ rest.length + beNat rest := by
  have h := foldl_shift rest (0 * 256 + byte.toNat)
  simpa [beNat] using h

theorem beNat_append (front back : Bytes) :
    beNat (front ++ back) = beNat front * 256 ^ back.length + beNat back := by
  rw [beNat, List.foldl_append]
  exact foldl_shift back (beNat front)

theorem beNat_lt (bytes : Bytes) : beNat bytes < 256 ^ bytes.length := by
  induction bytes with
  | nil => simp
  | cons byte rest ih =>
      have hbyte : byte.toNat ≤ 255 := Nat.le_of_lt_succ byte.toNat_lt
      rw [beNat_cons, List.length_cons, pow_succ]
      calc
        byte.toNat * 256 ^ rest.length + beNat rest
            < byte.toNat * 256 ^ rest.length + 256 ^ rest.length := by omega
        _ ≤ 255 * 256 ^ rest.length + 256 ^ rest.length := by gcongr
        _ = 256 ^ rest.length * 256 := by ring

/-- Reading back what was written keeps the low `width` octets. -/
theorem beNat_beBytes_mod (width value : Nat) :
    beNat (beBytes width value) = value % 256 ^ width := by
  induction width with
  | zero => simp [beBytes, Nat.mod_one]
  | succ width ih =>
      have hstep : value % 256 ^ (width + 1) =
          value % 256 ^ width + 256 ^ width * (value / 256 ^ width % 256) := by
        rw [pow_succ, Nat.mod_mul]
      rw [beBytes, beNat_cons, beBytes_length, ih, UInt8.toNat_ofNat', hstep]
      ring

theorem beNat_beBytes {width value : Nat} (hvalue : value < 256 ^ width) :
    beNat (beBytes width value) = value := by
  rw [beNat_beBytes_mod, Nat.mod_eq_of_lt hvalue]

/-- Two equally long octet lists that denote one number are equal. -/
theorem beNat_injective {left right : Bytes} (hlength : left.length = right.length)
    (hvalue : beNat left = beNat right) : left = right := by
  induction left generalizing right with
  | nil => exact (List.length_eq_zero_iff.mp hlength.symm).symm
  | cons byte rest ih =>
      cases right with
      | nil => simp at hlength
      | cons other tail =>
          have htail : rest.length = tail.length := by simpa using hlength
          rw [beNat_cons, beNat_cons, htail] at hvalue
          have hleft := beNat_lt rest
          have hright := beNat_lt tail
          rw [htail] at hleft
          have hhead : byte.toNat = other.toNat := by
            have hq := congrArg (· / 256 ^ tail.length) hvalue
            simp only [Nat.mul_comm _ (256 ^ tail.length)] at hq
            rwa [Nat.mul_add_div (by positivity), Nat.mul_add_div (by positivity),
              Nat.div_eq_of_lt hleft, Nat.div_eq_of_lt hright] at hq
          have hrest : beNat rest = beNat tail := by
            rw [hhead] at hvalue
            omega
          rw [UInt8.toNat_inj.mp hhead, ih htail hrest]

/-- Writing back what was read gives the same octets. -/
theorem beBytes_beNat (bytes : Bytes) : beBytes bytes.length (beNat bytes) = bytes := by
  apply beNat_injective (by simp)
  exact beNat_beBytes (beNat_lt bytes)

theorem beBytes_inj {width left right : Nat} (hleft : left < 256 ^ width)
    (hright : right < 256 ^ width) (h : beBytes width left = beBytes width right) :
    left = right := by
  rw [← beNat_beBytes hleft, h, beNat_beBytes hright]

theorem beBytes_eq_iff {width value : Nat} {bytes : Bytes} (hlength : bytes.length = width)
    (hvalue : value < 256 ^ width) : beBytes width value = bytes ↔ beNat bytes = value := by
  constructor
  · intro h
    rw [← h, beNat_beBytes hvalue]
  · intro h
    rw [← h, ← hlength, beBytes_beNat]

/-- Only the low octets of a number are written. -/
theorem beBytes_mod (width value : Nat) :
    beBytes width (value % 256 ^ width) = beBytes width value := by
  apply beNat_injective (by simp)
  rw [beNat_beBytes_mod, beNat_beBytes_mod, Nat.mod_mod]

section MachineWords

/-- `(value << 8) | byte` appends one octet to a number. -/
theorem shift_or_byte (value : Nat) (byte : UInt8) :
    value <<< 8 ||| byte.toNat = value * 256 + byte.toNat := by
  rw [← Nat.shiftLeft_add_eq_or_of_lt (show byte.toNat < 2 ^ 8 from byte.toNat_lt),
    Nat.shiftLeft_eq]

/-- Four octets put together by shifts, as a 32-bit length is read. -/
theorem or_of_shifts (first second third fourth : UInt8) :
    first.toNat <<< 24 ||| second.toNat <<< 16 ||| third.toNat <<< 8 ||| fourth.toNat =
      beNat [first, second, third, fourth] := by
  have hshift : first.toNat <<< 24 ||| second.toNat <<< 16 ||| third.toNat <<< 8 =
      ((first.toNat <<< 8 ||| second.toNat) <<< 8 ||| third.toNat) <<< 8 := by
    simp only [Nat.shiftLeft_or_distrib, ← Nat.shiftLeft_add]
  rw [hshift, shift_or_byte, shift_or_byte, shift_or_byte]
  simp [beNat]

/-- The 64-bit accumulator loop reads a big-endian number exactly while the
octets fit the word. -/
theorem foldl_uint64 (bytes : Bytes) (hlength : bytes.length ≤ 8) :
    (bytes.foldl (fun (value : UInt64) byte => (value <<< 8) ||| byte.toUInt64) 0).toNat =
      beNat bytes := by
  induction bytes using List.reverseRecOn with
  | nil => rfl
  | append_singleton front byte ih =>
      have hfront : front.length ≤ 7 := by simpa [Nat.lt_succ_iff] using hlength
      have hlt : beNat front < 2 ^ 56 := by
        have hpow : 256 ^ front.length ≤ 256 ^ 7 := Nat.pow_le_pow_right (by norm_num) hfront
        exact lt_of_lt_of_le (beNat_lt front) (by simpa using hpow)
      rw [List.foldl_append, beNat_append]
      simp only [List.foldl_cons, List.foldl_nil, UInt64.toNat_or, UInt64.toNat_shiftLeft,
        UInt8.toNat_toUInt64, ih (by omega)]
      rw [show (8 : UInt64).toNat % 64 = 8 from rfl, Nat.shiftLeft_eq,
        Nat.mod_eq_of_lt (by omega), ← Nat.shiftLeft_eq, shift_or_byte]
      simp [beNat_cons]

end MachineWords

end Octets
