import OpenCam.Control.Agreement
import OpenCam.Jvm.ByteArrays

/-!
`hkdfExpand` of `ControlProtocol.kt` with the arrays it creates, copies into and
clears. Its output is that of RFC 5869 for every key that the platform takes.
-/

namespace OpenCam.Android.ArrayLevel

open Octets Jvm Crypto Interaction Control

/-- Why a call does not return. -/
inductive Stopped where
  | exception (message : String)
  | unfinished
deriving DecidableEq, Repr

section Expansion

variable (hmac : Bytes → Bytes → Block 32)

/-- `mac`. A `SecretKeySpec` of an empty key is not constructed; `doFinal` creates the
array it returns. -/
def mac (key data : Bytes) (arrays : Arrays) : Except Stopped (Nat × Arrays) :=
  if key.isEmpty then .error (.exception "Empty key")
  else .ok (arrays.alloc (hmac key data).val)

/-- The variables of the loop and the arrays they name. -/
structure Expansion where
  arrays : Arrays
  previous : Nat
  offset : Nat
  counter : Nat
deriving DecidableEq, Repr

def arraycopy (arrays : Arrays) (src : Nat) (srcPos : Nat) (dest : Nat)
    (destPos length : Nat) : Except Stopped Arrays :=
  (arrays.arraycopy src srcPos dest destPos length).mapError .exception

/-- The body of the loop. -/
def expandPass (prk info output : Nat) (outputLength : Nat) (state : Expansion) :
    Except Stopped Expansion := do
  let data := state.arrays.read state.previous ++ state.arrays.read info ++
    [UInt8.ofNat state.counter]
  let (previous, arrays) ← mac hmac (state.arrays.read prk) data state.arrays
  let copyLength := min (arrays.read previous).length (outputLength - state.offset)
  let arrays ← arraycopy arrays previous 0 output state.offset copyLength
  .ok ⟨arrays, previous, state.offset + copyLength, state.counter + 1⟩

/-- The loop. A pass copies at least one byte, so `outputLength` passes are enough. -/
def expandLoop (prk info output : Nat) (outputLength : Nat) :
    Nat → Expansion → Except Stopped Expansion
  | 0, state => if state.offset < outputLength then .error .unfinished else .ok state
  | passes + 1, state =>
      if state.offset < outputLength then do
        let next ← expandPass hmac prk info output outputLength state
        expandLoop prk info output outputLength passes next
      else .ok state

def hkdfExpand (prk info : Nat) (outputLength : Int) (arrays : Arrays) :
    Except Stopped (Nat × Arrays) :=
  if ¬ outputLength ≥ 0 then .error (.exception "Failed requirement.")
  else if ¬ outputLength ≤ 255 * 32 then .error (.exception "Failed requirement.")
  else do
    let (output, arrays) := arrays.alloc (List.replicate outputLength.toNat 0)
    let (previous, arrays) := arrays.alloc []
    let final ← expandLoop hmac prk info output outputLength.toNat outputLength.toNat
      ⟨arrays, previous, 0, 1⟩
    .ok (output, final.arrays.fill final.previous 0)

end Expansion

section Loop

variable {hmac : Bytes → Bytes → Block 32} {before : Arrays} {prk info output : Nat}
  {outputLength : Nat}

/-- The loop after some blocks. The output holds as much of the stream as fits, the
last block is in an array of its own, and the arrays of the caller are as they were. -/
structure Expanding (hmac : Bytes → Bytes → Block 32) (before : Arrays) (prk info : Nat)
    (output : Nat) (outputLength blocks : Nat) (state : Expansion) : Prop where
  offset : state.offset = min outputLength (32 * blocks)
  counter : state.counter = blocks + 1
  block : state.arrays.read state.previous =
    hkdfBlock hmac (before.read prk) (before.read info) blocks
  copied : state.arrays.read output =
    (hkdfStream hmac (before.read prk) (before.read info) blocks).take outputLength ++
      List.replicate (outputLength - state.offset) 0
  separate : state.previous ≠ output
  created : output < state.arrays.length
  fresh : before.length ≤ state.previous
  kept : ∀ ref, ref < before.length → state.arrays.read ref = before.read ref

/-- One pass adds one block. -/
theorem Expanding.pass {blocks : Nat} {state : Expansion} (houtput : before.length ≤ output)
    (hprk : prk < before.length) (hinfo : info < before.length) (hkey : before.read prk ≠ [])
    (h : Expanding hmac before prk info output outputLength blocks state)
    (hmore : state.offset < outputLength) :
    ∃ next, expandPass hmac prk info output outputLength state = .ok next ∧
      state.offset < next.offset ∧
      Expanding hmac before prk info output outputLength (blocks + 1) next := by
  obtain ⟨arrays, previous, offset, counter⟩ := state
  obtain ⟨hoffset, hcounter, hblock, hcopied, hseparate, hcreated, hfresh, hkept⟩ := h
  dsimp only at *
  obtain ⟨block, hnew⟩ : ∃ block, block =
      hkdfBlock hmac (before.read prk) (before.read info) (blocks + 1) := ⟨_, rfl⟩
  have hsize : block.length = 32 := by rw [hnew, hkdfBlock_length]
  have hempty : (before.read prk).isEmpty = false := by simpa using hkey
  -- the array that `doFinal` creates
  have htag : mac hmac (arrays.read prk) (arrays.read previous ++ arrays.read info ++
      [UInt8.ofNat counter]) arrays = .ok (arrays.length, arrays ++ [block]) := by
    rw [mac, hkept prk hprk, hempty, hkept info hinfo, hblock, hcounter, hnew]
    rfl
  obtain ⟨stream, hstream⟩ : ∃ stream, stream =
      (hkdfStream hmac (before.read prk) (before.read info) blocks).take outputLength := ⟨_, rfl⟩
  have hlength : stream.length = offset := by
    rw [hstream, List.length_take, hkdfStream_length, hoffset]
  have hnext : stream ++ block.take (min block.length (outputLength - offset)) =
      (hkdfStream hmac (before.read prk) (before.read info) (blocks + 1)).take outputLength := by
    rw [← hlength, hstream, hnew]
    exact hkdfStream_take_succ hmac _ _ (by omega)
  obtain ⟨count, hcount⟩ : ∃ count, count = min block.length (outputLength - offset) := ⟨_, rfl⟩
  have hgrown : stream ++ block.take count ++ List.replicate (outputLength - (offset + count)) 0 =
      stream ++ block.take count ++ (List.replicate (outputLength - offset) 0).drop count := by
    rw [List.drop_replicate, Nat.sub_sub]
  have hread : (arrays ++ [block]).read output =
      stream ++ List.replicate (outputLength - offset) 0 := by
    rw [Arrays.read_append hcreated, hcopied, hstream]
  have hcopy : arraycopy (arrays ++ [block]) arrays.length 0 output offset count =
      .ok ((arrays ++ [block]).set output (stream ++ block.take count ++
        List.replicate (outputLength - (offset + count)) 0)) := by
    have hroom : ¬ (((arrays ++ [block]).read arrays.length).length < 0 + count ∨
        ((arrays ++ [block]).read output).length < offset + count) := by
      rw [Arrays.read_append_last, hread, List.length_append, List.length_replicate, hlength]
      omega
    rw [arraycopy, Arrays.arraycopy, if_neg hroom, Arrays.read_append_last, hread, hgrown,
      ← hlength, List.take_left, ← List.drop_drop, List.drop_left]
    rfl
  have hset : output < (arrays ++ [block]).length := by
    rw [List.length_append]
    omega
  refine ⟨⟨(arrays ++ [block]).set output (stream ++ block.take count ++
    List.replicate (outputLength - (offset + count)) 0), arrays.length, offset + count,
    counter + 1⟩, ?_, by simp only; omega, ?_⟩
  · rw [expandPass]
    simp only [htag, bind, Except.bind, Arrays.read_append_last, ← hcount, hcopy]
  · exact
      { offset := by simp only; omega
        counter := by simp only; omega
        block := by
          have hother : output ≠ arrays.length := by omega
          rw [Arrays.read_set_other hother, Arrays.read_append_last, hnew]
        copied := by
          rw [Arrays.read_set_same hset, hcount, hnext]
        separate := by simp only; omega
        created := by
          rw [List.length_set]
          exact hset
        fresh := by simp only; omega
        kept := by
          intro ref href
          rw [Arrays.read_set_other (by omega), Arrays.read_append (by omega), hkept ref href] }

/-- By induction on the passes that are left: the loop ends, and behind enough blocks. -/
theorem Expanding.loop {blocks : Nat} {state : Expansion} (houtput : before.length ≤ output)
    (hprk : prk < before.length) (hinfo : info < before.length) (hkey : before.read prk ≠ [])
    (h : Expanding hmac before prk info output outputLength blocks state) {passes : Nat}
    (hpasses : outputLength ≤ state.offset + passes) :
    ∃ final, expandLoop hmac prk info output outputLength passes state = .ok final ∧
      ∃ blocks, outputLength ≤ 32 * blocks ∧
        Expanding hmac before prk info output outputLength blocks final := by
  have hdone : ¬ state.offset < outputLength → outputLength ≤ 32 * blocks := by
    have hoffset := h.offset
    omega
  induction passes generalizing blocks state with
  | zero =>
      have hend : ¬ state.offset < outputLength := by omega
      exact ⟨state, by rw [expandLoop, if_neg hend], blocks, hdone hend, h⟩
  | succ passes ih =>
      by_cases hmore : state.offset < outputLength
      · obtain ⟨next, hpass, hadvance, hnext⟩ := h.pass houtput hprk hinfo hkey hmore
        have hoffset := hnext.offset
        obtain ⟨final, hloop, hfinal⟩ := ih hnext (by omega) (by omega)
        refine ⟨final, ?_, hfinal⟩
        rw [expandLoop, if_pos hmore, hpass]
        exact hloop
      · exact ⟨state, by rw [expandLoop, if_neg hmore], blocks, hdone hmore, h⟩

/-- Before the first block the output is zero and the block is empty. -/
theorem expanding_start (hmac : Bytes → Bytes → Block 32) (before : Arrays) (prk info : Nat)
    (outputLength : Nat) :
    Expanding hmac before prk info before.length outputLength 0
      ⟨before ++ [List.replicate outputLength 0] ++ [[]], before.length + 1, 0, 1⟩ where
  offset := by simp
  counter := rfl
  block := by
    have hlast := @Arrays.read_append_last (before ++ [List.replicate outputLength 0]) []
    rwa [List.length_append, List.length_singleton] at hlast
  copied := by
    rw [Arrays.read_append (by simp), Arrays.read_append_last]
    simp [hkdfStream]
  separate := by simp
  created := by simp
  fresh := by simp
  kept := by
    intro ref href
    rw [Arrays.read_append (by simp; omega), Arrays.read_append href]

end Loop

section Result

variable {hmac : Bytes → Bytes → Block 32} {before : Arrays} {prk info : Nat}

/-- The call returns. Its output is a new array, which clearing the last block leaves
alone. -/
theorem hkdfExpand_returns (hprk : prk < before.length) (hinfo : info < before.length)
    (hkey : before.read prk ≠ []) {outputLength : Nat} (hmost : outputLength ≤ 8160) :
    ∃ output after, hkdfExpand hmac prk info outputLength before = .ok (output, after) ∧
      after.read output = Crypto.hkdfExpand hmac (before.read prk) (before.read info) outputLength ∧
      before.length ≤ output ∧ ∀ ref, ref < before.length → after.read ref = before.read ref := by
  have hstart := expanding_start hmac before prk info outputLength
  obtain ⟨final, hloop, blocks, hblocks, hfinal⟩ :=
    hstart.loop (le_refl _) hprk hinfo hkey (Nat.le_add_left outputLength 0)
  refine ⟨before.length, final.arrays.fill final.previous 0, ?_, ?_, le_refl _, ?_⟩
  · have hlow : ¬ ¬ (outputLength : Int) ≥ 0 := by omega
    have hhigh : ¬ ¬ (outputLength : Int) ≤ 255 * 32 := by omega
    rw [hkdfExpand, if_neg hlow, if_neg hhigh]
    have hnext : (before ++ [List.replicate outputLength 0]).length = before.length + 1 := by simp
    simp only [Arrays.alloc, Int.toNat_natCast, hnext, hloop]
    rfl
  · rw [Arrays.read_fill_other hfinal.separate, hfinal.copied, hkdfExpand_eq_take _ _ _ hblocks,
      hfinal.offset]
    simp [hblocks]
  · intro ref href
    have hfresh := hfinal.fresh
    have hother : final.previous ≠ ref := by omega
    rw [Arrays.read_fill_other hother, hfinal.kept ref href]

/-- `hkdfExpand` is HKDF-Expand for every key that is not empty. An empty one is
rejected as soon as there is a block to compute. -/
theorem hkdfExpand_rfc5869 (hprk : prk < before.length) (hinfo : info < before.length)
    {outputLength : Int} (hleast : 0 ≤ outputLength) (hmost : outputLength ≤ 8160) :
    (before.read prk ≠ [] → ∃ output after,
      hkdfExpand hmac prk info outputLength before = .ok (output, after) ∧
      after.read output =
        Crypto.hkdfExpand hmac (before.read prk) (before.read info) outputLength.toNat ∧
      before.length ≤ output ∧ ∀ ref, ref < before.length → after.read ref = before.read ref) ∧
    (before.read prk = [] → 0 < outputLength →
      hkdfExpand hmac prk info outputLength before = .error (.exception "Empty key")) := by
  obtain ⟨length, rfl⟩ := Int.eq_ofNat_of_zero_le hleast
  constructor
  · intro hkey
    rw [Int.toNat_natCast]
    exact hkdfExpand_returns hprk hinfo hkey (by omega)
  · intro hkey hpos
    obtain ⟨length, rfl⟩ : ∃ fewer, length = fewer + 1 := ⟨length - 1, by omega⟩
    have hlow : ¬ ¬ ((length + 1 : Nat) : Int) ≥ 0 := by omega
    have hhigh : ¬ ¬ ((length + 1 : Nat) : Int) ≤ 255 * 32 := by omega
    have hread : (before ++ [List.replicate (length + 1) 0] ++ [[]]).read prk = [] := by
      rw [Arrays.read_append (by rw [List.length_append]; omega), Arrays.read_append hprk, hkey]
    rw [hkdfExpand, if_neg hlow, if_neg hhigh]
    simp only [Arrays.alloc, Int.toNat_natCast, expandLoop, expandPass, mac, hread]
    rfl

theorem hkdfExpand_rfc5869_block :
    Crypto.hkdfExpand (fun _ _ => ⟨List.replicate 32 7, rfl⟩) [1] [2] 3 = [7, 7, 7] ∧
      ∃ output after, hkdfExpand (fun _ _ => ⟨List.replicate 32 7, rfl⟩) 0 1 3 [[1], [2]] =
        .ok (output, after) ∧ after.read output =
          Crypto.hkdfExpand (fun _ _ => ⟨List.replicate 32 7, rfl⟩) [1] [2] 3 := by
  have hcall := (@hkdfExpand_rfc5869 (fun _ _ => ⟨List.replicate 32 7, rfl⟩) [[1], [2]] 0 1
    (by decide) (by decide) 3 (by decide) (by decide)).1 (by decide)
  obtain ⟨output, after, hreturns, houtput, _⟩ := hcall
  exact ⟨by decide, output, after, hreturns, houtput⟩

/-- There is no expansion of an empty key. -/
theorem hkdfExpand_empty_key : ¬ ∀ (hmac : Bytes → Bytes → Block 32) (before : Arrays)
    (prk info : Nat) (outputLength : Int), prk < before.length → info < before.length →
    0 ≤ outputLength → outputLength ≤ 8160 → ∃ output after,
      hkdfExpand hmac prk info outputLength before = .ok (output, after) ∧
      after.read output =
        Crypto.hkdfExpand hmac (before.read prk) (before.read info) outputLength.toNat := by
  intro h
  obtain ⟨output, after, hreturns, _⟩ := h (fun _ _ => ⟨List.replicate 32 0, rfl⟩) [[], []] 0 1 1
    (by decide) (by decide) (by decide) (by decide)
  have hthrows : hkdfExpand (fun _ _ => ⟨List.replicate 32 0, rfl⟩) 0 1 1 [[], []] =
      .error (.exception "Empty key") := rfl
  rw [hthrows] at hreturns
  cases hreturns

/-- In the standard surroundings the program of `hkdfExpand` evaluates to the bytes that
the arrays end up with. -/
theorem hkdfExpand_program {primitives : Primitives} {clock : Time} (wire : Wire)
    (hprk : prk < before.length) (hinfo : info < before.length) (hkey : before.read prk ≠ [])
    {outputLength : Nat} (hmost : outputLength ≤ 8160) :
    ∃ output after, hkdfExpand primitives.hmac prk info outputLength before = .ok (output, after) ∧
      (Android.hkdfExpand (before.read prk) (before.read info) outputLength).Evaluates
        (standardAnswer primitives clock) wire (after.read output) wire := by
  obtain ⟨output, after, hreturns, houtput, _⟩ :=
    @hkdfExpand_returns primitives.hmac before prk info hprk hinfo hkey outputLength hmost
  refine ⟨output, after, hreturns, ?_⟩
  rw [houtput]
  exact android_hkdfExpand_evaluates _ _ (by omega) wire

end Result

end OpenCam.Android.ArrayLevel
