import OpenCam.Android.ActivationLayout

/-!
`stream_options.cpp`: the activation packet that the Linux receiver sends first.
The phone decodes it faithfully or refuses it.
-/

namespace OpenCam.Linux

open Octets Jvm

structure StreamOptions where
  fps : Int32 := 30
  width : Int32 := 640
  height : Int32 := 480
  camera : Int32 := 1
  adaptiveBitrate : Bool := false
  bitrate : Int32 := 4096000
  minBitrate : Int32 := 512000
  maxBitrate : Int32 := 25600000
  stabilization : Bool := false
  flash : Bool := false
  h265 : Bool := false
  focusMode : Int32 := 0
deriving DecidableEq, Repr

def writeInt32 (value : Int32) : Bytes :=
  let unsignedValue := value.toUInt32
  [((unsignedValue >>> 24) &&& 0xFF).toUInt8, ((unsignedValue >>> 16) &&& 0xFF).toUInt8,
    ((unsignedValue >>> 8) &&& 0xFF).toUInt8, (unsignedValue &&& 0xFF).toUInt8]

def writeBool (value : Bool) : Bytes := [if value then 1 else 0]

def writeUint16 (value : UInt16) : Bytes :=
  [((value >>> 8) &&& 0xFF).toUInt8, (value &&& 0xFF).toUInt8]

def buildActivationPacket (options : StreamOptions) : Bytes :=
  writeInt32 options.fps ++ writeInt32 options.width ++ writeInt32 options.height ++
    writeInt32 options.camera ++ writeBool options.adaptiveBitrate ++
    writeInt32 options.bitrate ++ writeInt32 options.minBitrate ++
    writeInt32 options.maxBitrate ++ writeBool options.stabilization ++
    writeBool options.flash ++ writeBool options.h265 ++ writeInt32 options.focusMode ++
    writeUint16 0 ++ writeUint16 0

/-- The byte of a word that a shift and a mask cut out. -/
theorem byte_of_shift (word shift : UInt32) {place : Nat} (hshift : shift.toNat = 8 * place)
    (hplace : place < 4) :
    ((word >>> shift) &&& 0xFF).toUInt8 = UInt8.ofNat (word.toNat / 256 ^ place) := by
  have hmask : (0xFF : UInt32).toNat = 2 ^ 8 - 1 := rfl
  have hpow : 256 ^ place = 2 ^ (8 * place) := by rw [Nat.pow_mul]
  apply UInt8.toNat_inj.mp
  rw [UInt8.toNat_ofNat', UInt32.toNat_toUInt8, UInt32.toNat_and, UInt32.toNat_shiftRight, hshift,
    Nat.mod_eq_of_lt (show 8 * place < 32 by omega), Nat.shiftRight_eq_div_pow, hmask,
    Nat.and_two_pow_sub_one_eq_mod, hpow, Nat.mod_mod]

/-- A two's complement number is written most significant byte first. -/
theorem writeInt32_eq (value : Int32) : writeInt32 value = int32Bytes value.toInt := by
  have hbits : (value.toInt % 2 ^ 32).toNat = value.toUInt32.toNat := by
    have hlt := value.toBitVec.isLt
    rw [← Int32.toInt_toBitVec, BitVec.toInt_eq_toNat_bmod, ← Int32.toNat_toBitVec,
      show (2 ^ 32 : Int) = ((2 ^ 32 : Nat) : Int) from rfl, Int.bmod_emod]
    omega
  have hlast : (value.toUInt32 &&& 0xFF).toUInt8 = UInt8.ofNat (value.toUInt32.toNat / 256 ^ 0) := by
    have hlow := @byte_of_shift value.toUInt32 0 0 rfl (by omega)
    rwa [UInt32.shiftRight_zero] at hlow
  rw [int32Bytes, hbits]
  simp only [writeInt32, beBytes, hlast, @byte_of_shift value.toUInt32 24 3 rfl (by omega),
    @byte_of_shift value.toUInt32 16 2 rfl (by omega),
    @byte_of_shift value.toUInt32 8 1 rfl (by omega)]

section Decoded

open Android Android.StreamOptions

namespace StreamOptions

/-- The fields of the packet. -/
def fields (options : StreamOptions) : Fields where
  fps := options.fps.toInt
  width := options.width.toInt
  height := options.height.toInt
  cameraValue := options.camera.toInt
  adaptiveBitrate := options.adaptiveBitrate
  bitrate := options.bitrate.toInt
  minBitrate := options.minBitrate.toInt
  maxBitrate := options.maxBitrate.toInt
  stabilization := options.stabilization
  flash := options.flash
  h265 := options.h265
  focusMode := options.focusMode.toInt

/-- What the phone should make of the packet. -/
def received (options : StreamOptions) : Android.StreamOptions where
  camera := if options.camera = 1 then .back else .front
  bitrate := options.bitrate.toInt
  adaptiveBitrateMin := options.minBitrate.toInt
  adaptiveBitrateMax := options.maxBitrate.toInt
  adaptiveBitrateEnabled := options.adaptiveBitrate
  width := options.width.toInt
  height := options.height.toInt
  fps := options.fps.toInt
  activeEffectFilter := none
  activeCorrectionFilters := []
  stabilization := options.stabilization
  flashEnabled := options.flash
  focusMode := options.focusMode.toInt
  h265Enabled := options.h265

end StreamOptions

/-- The packet is an activation message without filters and without an effect. -/
theorem buildActivationPacket_eq (options : StreamOptions) :
    buildActivationPacket options = encodeActivation options.fields [] [] := by
  have hbool : ∀ value, writeBool value = boolByte value := by
    intro value
    cases value <;> rfl
  simp only [buildActivationPacket, writeInt32_eq, hbool, encodeActivation, encodeFields,
    StreamOptions.fields, List.append_assoc]
  rfl

/-- Two packets with the same fixed part have the same fields. -/
theorem encodeFields_inj {options : StreamOptions} {fields : Fields} (haccepted : fields.Accepted)
    (h : encodeFields options.fields = encodeFields fields) : options.fields = fields := by
  have hint : ∀ {number : Int32} {other : Int}, -2 ^ 31 ≤ other → other < 2 ^ 31 →
      int32Bytes number.toInt = int32Bytes other → number.toInt = other := by
    intro number other hlow hhigh hbytes
    rw [← toInt32_bytes number.le_toInt number.toInt_lt, hbytes, toInt32_bytes hlow hhigh]
  have hbool : ∀ {value other : Bool}, boolByte value = boolByte other → value = other := by
    decide
  obtain ⟨fps, width, height, cameraValue, adaptiveBitrate, bitrate, minBitrate, maxBitrate,
    stabilization, flash, h265, focusMode⟩ := fields
  obtain ⟨hfps, hwidth, hheight, -, hcamera, hbitrate, hmin, hmax, -, hfocus⟩ := haccepted
  simp only [encodeFields, StreamOptions.fields] at *
  obtain ⟨h, h12⟩ := List.append_inj' h (by simp)
  obtain ⟨h, h11⟩ := List.append_inj' h (by simp)
  obtain ⟨h, h10⟩ := List.append_inj' h (by simp)
  obtain ⟨h, h9⟩ := List.append_inj' h (by simp)
  obtain ⟨h, h8⟩ := List.append_inj' h (by simp)
  obtain ⟨h, h7⟩ := List.append_inj' h (by simp)
  obtain ⟨h, h6⟩ := List.append_inj' h (by simp)
  obtain ⟨h, h5⟩ := List.append_inj' h (by simp)
  obtain ⟨h, h4⟩ := List.append_inj' h (by simp)
  obtain ⟨h, h3⟩ := List.append_inj' h (by simp)
  obtain ⟨h1, h2⟩ := List.append_inj' h (by simp)
  simp only [Fields.mk.injEq]
  exact ⟨hint (by omega) (by omega) h1, hint (by omega) (by omega) h2,
    hint (by omega) (by omega) h3, hint (by omega) (by omega) h4, hbool h5,
    hint (by omega) (by omega) h6, hint (by omega) (by omega) h7, hint (by omega) (by omega) h8,
    hbool h9, hbool h10, hbool h11, hint (by omega) (by omega) h12⟩

/-- An activation message of 40 bytes has no filters and no effect. -/
theorem encodeActivation_bare {options : StreamOptions} {fields : Fields}
    {filters : List (Bytes × Int)} {effect : Bytes} (haccepted : fields.Accepted)
    (hcount : filters.length ≤ 128)
    (h : encodeActivation options.fields [] [] = encodeActivation fields filters effect) :
    options.fields = fields ∧ filters = [] ∧ effect = [] := by
  have hlength : (encodeFields options.fields).length = (encodeFields fields).length := by
    rw [encodeFields_length, encodeFields_length]
  obtain ⟨hfields, hrest⟩ := List.append_inj h hlength
  obtain ⟨hfilters, heffect⟩ := List.append_inj hrest (by simp)
  have hnone : filters.length = 0 :=
    (beBytes_inj (by decide) (by omega) hfilters).symm
  obtain rfl := List.length_eq_zero_iff.mp hnone
  have hempty := congrArg List.length heffect
  simp only [List.flatMap_nil, List.nil_append, encodeText, List.length_append, beBytes_length,
    List.length_nil, Nat.add_zero] at hempty
  exact ⟨encodeFields_inj haccepted hfields, rfl, List.length_eq_zero_iff.mp (by omega)⟩

/-- The phone takes exactly the packets whose values are in range, and takes all
of their values as they are. -/
theorem deserialize_buildActivationPacket (newInstance : FilterRepository.FilterClass → Bool)
    (fresh : Nat) (o : StreamOptions) :
    ((∃ options, deserialize newInstance fresh (buildActivationPacket o) = .ok options) ↔
      (1 ≤ o.fps.toInt ∧ o.fps.toInt ≤ 60) ∧
      (160 ≤ o.width.toInt ∧ o.width.toInt ≤ 8192) ∧
      (160 ≤ o.height.toInt ∧ o.height.toInt ≤ 8192) ∧
      o.width.toInt * o.height.toInt ≤ 16777216 ∧
      (o.camera = 0 ∨ o.camera = 1) ∧
      (64000 ≤ o.bitrate.toInt ∧ o.bitrate.toInt ≤ 50000000) ∧
      (64000 ≤ o.minBitrate.toInt ∧ o.minBitrate.toInt ≤ 50000000) ∧
      (64000 ≤ o.maxBitrate.toInt ∧ o.maxBitrate.toInt ≤ 50000000) ∧
      o.minBitrate.toInt ≤ o.maxBitrate.toInt ∧
      (o.focusMode = 0 ∨ o.focusMode = 1)) ∧
    ∀ options, deserialize newInstance fresh (buildActivationPacket o) = .ok options →
      options = o.received ∧
        readActivation newInstance (buildActivationPacket o) 0 =
          .ok (⟨o.fields, [], []⟩, (buildActivationPacket o).length) := by
  have hbit : ∀ value : Int32, (0 ≤ value.toInt ∧ value.toInt ≤ 1) ↔ value = 0 ∨ value = 1 := by
    intro value
    rw [← Int32.toInt_inj, ← Int32.toInt_inj]
    have hzero : (0 : Int32).toInt = 0 := rfl
    have hone : (1 : Int32).toInt = 1 := rfl
    omega
  have hcamera : o.fields.cameraValue = 1 ↔ o.camera = 1 := by
    rw [← Int32.toInt_inj]
    exact Iff.rfl
  have hdecoded : o.fields.Accepted →
      deserialize newInstance fresh (buildActivationPacket o) = .ok o.received := by
    intro haccepted
    rw [buildActivationPacket_eq, @deserialize_encoded _ _ haccepted _ (Nat.zero_le _)
      (fun _ hmem => absurd hmem List.not_mem_nil) _ (Nat.zero_le _) [] rfl fresh]
    simp only [effectOf, List.isEmpty_nil, if_true, optionsOf, hcamera]
    rfl
  have haccepted : ∀ options, deserialize newInstance fresh (buildActivationPacket o) = .ok options →
      o.fields.Accepted := by
    intro options h
    obtain ⟨activation, filters, effect, _, hlaid, hpacket, _⟩ := deserialize_laid h
    rw [buildActivationPacket_eq] at hpacket
    obtain ⟨hfields, _⟩ := encodeActivation_bare hlaid.fields hlaid.count hpacket
    exact hfields ▸ hlaid.fields
  constructor
  · constructor
    · rintro ⟨options, h⟩
      have hall := haccepted options h
      exact ⟨hall.fps, hall.width, hall.height, hall.pixels, (hbit _).mp hall.camera, hall.bitrate,
        hall.minBitrate, hall.maxBitrate, hall.min_le_max, (hbit _).mp hall.focusMode⟩
    · rintro ⟨hfps, hwidth, hheight, hpixels, hside, hbitrate, hmin, hmax, hordered, hfocus⟩
      exact ⟨_, hdecoded ⟨hfps, hwidth, hheight, hpixels, (hbit _).mpr hside, hbitrate, hmin, hmax,
        hordered, (hbit _).mpr hfocus⟩⟩
  · intro options h
    have hall := haccepted options h
    refine ⟨Except.ok.inj (h.symm.trans (hdecoded hall)), ?_⟩
    have hread := @reads_readActivation newInstance _ hall [] (Nat.zero_le _)
      (fun _ hmem => absurd hmem List.not_mem_nil) [] (Nat.zero_le _) [] rfl []
    rw [List.nil_append, List.append_nil, List.length_nil, Nat.zero_add] at hread
    rw [buildActivationPacket_eq]
    exact hread

/-- The options that the receiver sends by default. -/
theorem deserialize_buildActivationPacket_default :
    deserialize (fun _ => true) 0 (buildActivationPacket {}) = .ok (StreamOptions.received {}) :=
  have haccepted := (deserialize_buildActivationPacket (fun _ => true) 0 {}).1.mpr (by decide)
  haccepted.elim fun options h =>
    ((deserialize_buildActivationPacket (fun _ => true) 0 {}).2 options h).1 ▸ h

end Decoded

end OpenCam.Linux
