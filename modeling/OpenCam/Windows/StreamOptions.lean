import OpenCam.Android.StreamOptions
import OpenCam.Windows.Serializer

/-!
The stream options of the Windows controller and `SerializeStreamOptions`,
which encodes them for the phone. Bit rates are kept in kbit/s and sent in
bit/s.
-/

namespace OpenCam.Windows

open Octets

/-- What the controller remembers about a device. The map of slider values is
listed in the order of its keys. -/
structure StreamOptions where
  fps : Int := 30
  resolution : Int × Int := (640, 480)
  backCameraActive : Bool := true
  filterSliderValues : List (Bytes × Int) := []
  activeEffectFilter : Bytes := []
  adaptiveBitrate : Bool := false
  bitrate : Int := 4000
  minBitrate : Int := 2000
  maxBitrate : Int := 12000
  stabilizationEnabled : Bool := false
  flashEnabled : Bool := false
  h265Enabled : Bool := false
  focusMode : Int := 0
deriving DecidableEq, Repr

def WriteInt16 (value : Nat) : Bytes := beBytes 2 (value % 2 ^ 16)

def WriteInt32 (value : Int) : Bytes := beBytes 4 (value % 2 ^ 32).toNat

def WriteBool (value : Bool) : Bytes := [if value then 1 else 0]

def WriteString (value : Bytes) : Except String Bytes :=
  if value.length > MAX_STRING then .error "String too long"
  else .ok (WriteInt16 value.length ++ value)

/-- The body of the loop over the slider values. -/
def WriteFilter (filter : Bytes × Int) : Except String Bytes := do
  if filter.2 < -100 ∨ filter.2 > 100 then .error "Invalid filter value"
  else
    let name ← WriteString filter.1
    .ok (name ++ WriteInt32 filter.2)

/-- The loop over the slider values. -/
def WriteFilters : List (Bytes × Int) → Except String Bytes
  | [] => .ok []
  | filter :: rest => do
      let first ← WriteFilter filter
      let others ← WriteFilters rest
      .ok (first ++ others)

/-- The condition under which the options are refused. -/
def invalid (state : StreamOptions) : Bool :=
  state.fps < 1 || state.fps > 60 || state.resolution.1 < 160 || state.resolution.2 < 160 ||
    state.resolution.1 > MAX_DIMENSION.toNat || state.resolution.2 > MAX_DIMENSION.toNat ||
    state.resolution.1 * state.resolution.2 > 16777216 ||
    state.focusMode < 0 || state.focusMode > 1 ||
    state.filterSliderValues.length > MAX_LIST.toNat ||
    state.bitrate < 64 || state.bitrate > 25000 ||
    state.minBitrate < 64 || state.minBitrate > 25000 ||
    state.maxBitrate < state.minBitrate || state.maxBitrate > 25000

/-- What is written before the loop over the slider values. -/
def WriteFields (state : StreamOptions) : Bytes :=
  [0] ++ WriteInt32 state.fps ++ WriteInt32 state.resolution.1 ++
    WriteInt32 state.resolution.2 ++ WriteInt32 (if state.backCameraActive then 1 else 0) ++
    WriteBool state.adaptiveBitrate ++ WriteInt32 (state.bitrate * 1024) ++
    WriteInt32 (state.minBitrate * 1024) ++ WriteInt32 (state.maxBitrate * 1024) ++
    WriteBool state.stabilizationEnabled ++ WriteBool state.flashEnabled ++
    WriteBool state.h265Enabled ++ WriteInt32 state.focusMode ++
    WriteInt16 state.filterSliderValues.length

def SerializeStreamOptions (state : StreamOptions) : Except String Bytes :=
  if invalid state then .error "Invalid stream options"
  else do
    let filters ← WriteFilters state.filterSliderValues
    let effect ← WriteString state.activeEffectFilter
    let buffer := WriteFields state ++ filters ++ effect
    if buffer.length > MAX_MESSAGE then .error "Activation exceeds limit"
    else .ok buffer

/-- The fields of the message, as the phone will hold them. -/
def fieldsOf (state : StreamOptions) : Android.StreamOptions.Fields where
  fps := state.fps
  width := state.resolution.1
  height := state.resolution.2
  cameraValue := if state.backCameraActive then 1 else 0
  adaptiveBitrate := state.adaptiveBitrate
  bitrate := state.bitrate * 1024
  minBitrate := state.minBitrate * 1024
  maxBitrate := state.maxBitrate * 1024
  stabilization := state.stabilizationEnabled
  flash := state.flashEnabled
  h265 := state.h265Enabled
  focusMode := state.focusMode

theorem WriteInt16_eq {value : Nat} (hvalue : value < 65536) :
    WriteInt16 value = beBytes 2 value := by
  rw [WriteInt16, Nat.mod_eq_of_lt (by omega)]

theorem WriteInt32_eq (value : Int) : WriteInt32 value = Jvm.int32Bytes value := rfl

theorem WriteBool_eq (value : Bool) : WriteBool value = Android.StreamOptions.boolByte value := by
  cases value <;> rfl

theorem WriteString_eq {value : Bytes} (hshort : value.length ≤ MAX_STRING) :
    WriteString value = .ok (Android.StreamOptions.encodeText value) := by
  have hsize : value.length < 65536 := by
    unfold MAX_STRING at hshort
    omega
  rw [WriteString, if_neg (by omega), WriteInt16_eq hsize]
  rfl

theorem WriteFilters_eq {filters : List (Bytes × Int)}
    (h : ∀ filter ∈ filters, filter.1.length ≤ MAX_STRING ∧ -100 ≤ filter.2 ∧ filter.2 ≤ 100) :
    WriteFilters filters = .ok (filters.flatMap Android.StreamOptions.encodeFilter) := by
  induction filters with
  | nil => rfl
  | cons filter rest ih =>
      rw [List.forall_mem_cons] at h
      obtain ⟨⟨hshort, hlow, hhigh⟩, hrest⟩ := h
      have hfirst : WriteFilter filter = .ok (Android.StreamOptions.encodeFilter filter) := by
        rw [WriteFilter, if_neg (by omega), WriteString_eq hshort]
        rfl
      rw [WriteFilters, hfirst, ih hrest]
      rfl

/-- Options that pass the check are encoded in the layout the phone reads,
behind a byte for the command. -/
theorem SerializeStreamOptions_eq {state : StreamOptions} (hvalid : invalid state = false)
    (hfilters : ∀ filter ∈ state.filterSliderValues,
      filter.1.length ≤ 128 ∧ -100 ≤ filter.2 ∧ filter.2 ≤ 100)
    (heffect : state.activeEffectFilter.length ≤ 128) :
    SerializeStreamOptions state = .ok (0 :: Android.StreamOptions.encodeActivation
      (fieldsOf state) state.filterSliderValues state.activeEffectFilter) := by
  have hcount : state.filterSliderValues.length ≤ 128 := by
    by_contra hlong
    have hmax : MAX_LIST.toNat = 128 := rfl
    have : invalid state = true := by
      simp only [invalid, hmax, Bool.or_eq_true, decide_eq_true_eq]
      omega
    rw [hvalid] at this
    cases this
  have hnames : WriteFilters state.filterSliderValues =
      .ok (state.filterSliderValues.flatMap Android.StreamOptions.encodeFilter) :=
    WriteFilters_eq fun filter hmem =>
      ⟨(hfilters filter hmem).1.trans (by decide), (hfilters filter hmem).2⟩
  have hname : WriteString state.activeEffectFilter =
      .ok (Android.StreamOptions.encodeText state.activeEffectFilter) :=
    WriteString_eq (heffect.trans (by decide))
  have hsize := Android.StreamOptions.encodeActivation_length (fieldsOf state)
    (fun filter hmem => (hfilters filter hmem).1) heffect
  have hbuffer : WriteFields state ++
      state.filterSliderValues.flatMap Android.StreamOptions.encodeFilter ++
      Android.StreamOptions.encodeText state.activeEffectFilter =
      0 :: Android.StreamOptions.encodeActivation (fieldsOf state) state.filterSliderValues
        state.activeEffectFilter := by
    simp only [WriteFields, WriteInt32_eq, WriteBool_eq,
      WriteInt16_eq (show state.filterSliderValues.length < 65536 by omega),
      Android.StreamOptions.encodeActivation, Android.StreamOptions.encodeFields, fieldsOf,
      List.append_assoc, List.cons_append, List.nil_append]
  have hfits : ¬ (0 :: Android.StreamOptions.encodeActivation (fieldsOf state)
      state.filterSliderValues state.activeEffectFilter).length > MAX_MESSAGE := by
    rw [List.length_cons]
    unfold MAX_MESSAGE
    omega
  rw [SerializeStreamOptions, hvalid, hnames, hname]
  simp only [Bool.false_eq_true, ↓reduceIte, bind, Except.bind, hbuffer, if_neg hfits]

end OpenCam.Windows
