import OpenCam.Android.FilterRepository
import OpenCam.Jvm.ByteBuffer

/-!
`StreamOptions.kt`: the options of a stream and the decoder of the activation
message that sets them. The decoder's checks stand in the order of the source;
the layout it reads is stated beside it and read back exactly.
-/

namespace OpenCam.Android

open Octets Octets.Reader Jvm FilterRepository

/-- A renderer object. Collections of renderers compare identities. The
adjustment is the value last passed to `FilterAdjuster`, before it is scaled to
the renderer's own unit. -/
structure BaseFilterRender where
  id : Nat
  filterClass : FilterClass
  adjustment : Option Int
deriving DecidableEq, Repr

/-- The keys of the registry of `FilterAdjuster`. -/
def FilterAdjuster.registry : List FilterClass :=
  [.brightnessFilterRender, .contrastFilterRender, .exposureFilterRender, .gammaFilterRender,
    .saturationFilterRender, .temperatureFilterRender, .sharpnessFilterRender]

/-- `FilterAdjuster.adjust`. -/
def FilterAdjuster.adjust (filter : BaseFilterRender) (value : Int) : BaseFilterRender :=
  if filter.filterClass ∈ FilterAdjuster.registry then { filter with adjustment := some value }
  else filter

/-- `CameraHelper.Facing`. -/
inductive Facing where
  | back
  | front
deriving DecidableEq, Repr

structure StreamOptions where
  camera : Facing := .back
  bitrate : Int := 4000 * 1024
  adaptiveBitrateMin : Int := 500 * 1024
  adaptiveBitrateMax : Int := 25000 * 1024
  adaptiveBitrateEnabled : Bool := false
  width : Int := 640
  height : Int := 480
  fps : Int := 30
  rotation : Int := 0
  activeEffectFilter : Option BaseFilterRender := none
  activeCorrectionFilters : List BaseFilterRender := []
  stabilization : Bool := false
  flashEnabled : Bool := false
  focusMode : Int := 0
  h265Enabled : Bool := false
  vFlipFilter : Option BaseFilterRender := none
  hFlipFilter : Option BaseFilterRender := none
deriving DecidableEq, Repr

namespace StreamOptions

def MAX_PACKET : Nat := 64 * 1024
def MAX_FILTERS : Nat := 128
def MAX_FILTER_NAME : Nat := 128

/-- The fields of fixed size, as they are read. -/
structure Fields where
  fps : Int
  width : Int
  height : Int
  cameraValue : Int
  adaptiveBitrate : Bool
  bitrate : Int
  minBitrate : Int
  maxBitrate : Int
  stabilization : Bool
  flash : Bool
  h265 : Bool
  focusMode : Int
deriving DecidableEq, Repr

/-- An activation message, as it is read. -/
structure Activation where
  fields : Fields
  filters : List (FilterClass × Int)
  activeEffectName : JString
deriving DecidableEq, Repr

def readString : Reader Throwable JString := do
  requireRemaining 2 "Truncated string length"
  let length ← getUnsignedShort
  requireThat (length ≤ MAX_FILTER_NAME) "Invalid string length"
  requireRemaining length "Invalid string length"
  let bytes ← getBytes length
  match decodeUtf8 bytes with
  | some text => Reader.pure text
  | none => Reader.throw .characterCoding

def readBool : Reader Throwable Bool := do
  requireRemaining 1 "Truncated boolean"
  let value ← getUnsignedByte
  if value = 0 then Reader.pure false
  else if value = 1 then Reader.pure true
  else Reader.throw (.illegalArgument "Invalid boolean")

def bitrateInRange (bitrate : Int) : Bool := 64000 ≤ bitrate && bitrate ≤ 50000000

def readFields : Reader Throwable Fields := do
  requireRemaining 36 "Truncated activation fields"
  let fps ← Jvm.getInt
  let width ← Jvm.getInt
  let height ← Jvm.getInt
  let cameraValue ← Jvm.getInt
  requireThat (0 ≤ cameraValue && cameraValue ≤ 1) "Invalid camera value"
  let adaptiveBitrate ← readBool
  let bitrate ← Jvm.getInt
  let minBitrate ← Jvm.getInt
  let maxBitrate ← Jvm.getInt
  let stabilization ← readBool
  let flash ← readBool
  let h265 ← readBool
  let focusMode ← Jvm.getInt
  requireThat (1 ≤ fps && fps ≤ 60) "FPS outside allowed range"
  requireThat (160 ≤ width && width ≤ 8192 && 160 ≤ height && height ≤ 8192 &&
    width * height ≤ 16777216) "Resolution outside allowed range"
  requireThat (bitrateInRange bitrate && bitrateInRange minBitrate && bitrateInRange maxBitrate &&
    minBitrate ≤ maxBitrate) "Invalid bitrate"
  requireThat (0 ≤ focusMode && focusMode ≤ 1) "Invalid focus mode"
  Reader.pure ⟨fps, width, height, cameraValue, adaptiveBitrate, bitrate, minBitrate, maxBitrate,
    stabilization, flash, h265, focusMode⟩

section Filters

variable (newInstance : FilterClass → Bool)

/-- The body of the filter loop. -/
def readFilter : Reader Throwable (FilterClass × Int) := do
  let name ← readString
  requireRemaining 4 "Truncated filter value"
  let value ← Jvm.getInt
  requireThat (-100 ≤ value && value ≤ 100) "Invalid filter adjustment"
  match create newInstance name with
  | none => Reader.throw (.illegalArgument "Unknown filter")
  | some filter => do
      requireThat (getCategory name = .correction) "Invalid correction filter"
      Reader.pure (filter, value)

def readActivation : Reader Throwable Activation := do
  let fields ← readFields
  requireRemaining 2 "Missing filter count"
  let filterCount ← getUnsignedShort
  requireThat (filterCount ≤ MAX_FILTERS) "Too many filters"
  let filters ← Reader.replicate (readFilter newInstance) filterCount
  let activeEffectName ← readString
  requireFinished "Trailing activation bytes"
  Reader.pure ⟨fields, filters, activeEffectName⟩

/-- The effect that a non-empty name stands for. -/
def effectOf (name : JString) : Except Throwable (Option FilterClass) :=
  if name.isEmpty then .ok none
  else if getCategory name ≠ .effect then .error (.illegalArgument "Invalid effect filter")
  else
    match create newInstance name with
    | some effect => .ok (some effect)
    | none => .error (.illegalArgument "Unknown effect filter")

/-- The result of `deserialize`. The renderers it creates are new objects, with
identities from `fresh` on in the order of their creation. -/
def optionsOf (fresh : Nat) (activation : Activation) (effect : Option FilterClass) :
    StreamOptions where
  camera := if activation.fields.cameraValue = 1 then .back else .front
  bitrate := activation.fields.bitrate
  adaptiveBitrateMin := activation.fields.minBitrate
  adaptiveBitrateMax := activation.fields.maxBitrate
  adaptiveBitrateEnabled := activation.fields.adaptiveBitrate
  width := activation.fields.width
  height := activation.fields.height
  fps := activation.fields.fps
  activeEffectFilter := effect.map fun filterClass =>
    ⟨fresh + activation.filters.length, filterClass, none⟩
  activeCorrectionFilters := (activation.filters.zipIdx fresh).map fun filter =>
    FilterAdjuster.adjust ⟨filter.2, filter.1.1, none⟩ filter.1.2
  stabilization := activation.fields.stabilization
  flashEnabled := activation.fields.flash
  focusMode := activation.fields.focusMode
  h265Enabled := activation.fields.h265

def deserialize (fresh : Nat) (data : Bytes) : Except (Fault Throwable) StreamOptions :=
  if !(40 ≤ data.length && data.length ≤ MAX_PACKET) then
    .error (.thrown (.illegalArgument "Invalid activation size"))
  else
    match readActivation newInstance data 0 with
    | .error fault => .error fault
    | .ok (activation, _) =>
        match effectOf newInstance activation.activeEffectName with
        | .error failure => .error (.thrown failure)
        | .ok effect => .ok (optionsOf fresh activation effect)

end Filters

section Layout

def boolByte (value : Bool) : Bytes := beBytes 1 (if value then 1 else 0)

/-- The fields of fixed size, in the order in which they are read. -/
def encodeFields (fields : Fields) : Bytes :=
  int32Bytes fields.fps ++ int32Bytes fields.width ++ int32Bytes fields.height ++
    int32Bytes fields.cameraValue ++ boolByte fields.adaptiveBitrate ++
    int32Bytes fields.bitrate ++ int32Bytes fields.minBitrate ++ int32Bytes fields.maxBitrate ++
    boolByte fields.stabilization ++ boolByte fields.flash ++ boolByte fields.h265 ++
    int32Bytes fields.focusMode

/-- A string of the message: its length and its UTF-8. -/
def encodeText (text : Bytes) : Bytes := beBytes 2 text.length ++ text

def encodeFilter (filter : Bytes × Int) : Bytes := encodeText filter.1 ++ int32Bytes filter.2

/-- The message that carries the given fields, filters and effect name. -/
def encodeActivation (fields : Fields) (filters : List (Bytes × Int)) (effect : Bytes) : Bytes :=
  encodeFields fields ++ (beBytes 2 filters.length ++ (filters.flatMap encodeFilter ++
    encodeText effect))

/-- The fields that pass every check on them. -/
structure Fields.Accepted (fields : Fields) : Prop where
  fps : 1 ≤ fields.fps ∧ fields.fps ≤ 60
  width : 160 ≤ fields.width ∧ fields.width ≤ 8192
  height : 160 ≤ fields.height ∧ fields.height ≤ 8192
  pixels : fields.width * fields.height ≤ 16777216
  camera : 0 ≤ fields.cameraValue ∧ fields.cameraValue ≤ 1
  bitrate : 64000 ≤ fields.bitrate ∧ fields.bitrate ≤ 50000000
  minBitrate : 64000 ≤ fields.minBitrate ∧ fields.minBitrate ≤ 50000000
  maxBitrate : 64000 ≤ fields.maxBitrate ∧ fields.maxBitrate ≤ 50000000
  min_le_max : fields.minBitrate ≤ fields.maxBitrate
  focusMode : 0 ≤ fields.focusMode ∧ fields.focusMode ≤ 1

@[simp] theorem int32Bytes_length (value : Int) : (int32Bytes value).length = 4 :=
  beBytes_length 4 _

@[simp] theorem boolByte_length (value : Bool) : (boolByte value).length = 1 :=
  beBytes_length 1 _

theorem encodeFields_length (fields : Fields) : (encodeFields fields).length = 36 := by
  simp [encodeFields]

/-- A message has its fixed part, and an entry of at most 134 bytes for each
filter. -/
theorem encodeActivation_length (fields : Fields) {filters : List (Bytes × Int)} {effect : Bytes}
    (hnames : ∀ filter ∈ filters, filter.1.length ≤ 128) (heffect : effect.length ≤ 128) :
    40 ≤ (encodeActivation fields filters effect).length ∧
      (encodeActivation fields filters effect).length ≤ 168 + filters.length * 134 := by
  have hitems : (filters.flatMap encodeFilter).length ≤ filters.length * 134 := by
    rw [List.length_flatMap, ← List.length_map (fun filter => (encodeFilter filter).length),
      ← smul_eq_mul]
    refine List.sum_le_card_nsmul _ _ fun size hsize => ?_
    obtain ⟨filter, hmem, rfl⟩ := List.mem_map.mp hsize
    have := hnames filter hmem
    simp only [encodeFilter, encodeText, List.length_append, beBytes_length, int32Bytes_length]
    omega
  simp only [encodeActivation, encodeText, List.length_append, encodeFields_length, beBytes_length]
  omega

theorem reads_readBool (value : Bool) (rest : Bytes) :
    Reads readBool (boolByte value) value rest := by
  have hbit : (if value then 1 else 0 : Nat) < 256 := by cases value <;> decide
  have hroom : 1 ≤ (boolByte value ++ [] ++ rest).length := by
    simp only [List.length_append, boolByte_length]
    omega
  rw [← List.append_nil (boolByte value)]
  unfold readBool
  refine (reads_requireRemaining hroom _).then ?_
  refine (reads_getUnsignedByte hbit ([] ++ rest)).bind ?_
  cases value
  · exact reads_pure false rest
  · exact reads_pure true rest

theorem reads_readString {text : JString} {bytes : Bytes} (hshort : bytes.length ≤ 128)
    (htext : decodeUtf8 bytes = some text) (rest : Bytes) :
    Reads readString (encodeText bytes) text rest := by
  have hroom : 2 ≤ (beBytes 2 bytes.length ++ (bytes ++ []) ++ rest).length := by
    simp only [List.length_append, beBytes_length]
    omega
  have hroom' : bytes.length ≤ (bytes ++ [] ++ rest).length := by simp
  rw [← List.append_nil (encodeText bytes), encodeText, List.append_assoc]
  unfold readString
  refine (reads_requireRemaining hroom _).then ?_
  refine (reads_getUnsignedShort (show bytes.length < 65536 by omega) _).bind ?_
  refine (reads_requireThat (decide_eq_true hshort) _ _).then ?_
  refine (reads_requireRemaining hroom' _).then ?_
  refine (reads_getBytes bytes _).bind ?_
  rw [htext]
  exact reads_pure text rest

theorem reads_readFields {fields : Fields} (h : fields.Accepted) (rest : Bytes) :
    Reads readFields (encodeFields fields) fields rest := by
  have hroom : 36 ≤ (encodeFields fields ++ [] ++ rest).length := by
    simp only [List.length_append, encodeFields_length]
    omega
  have hint : ∀ value : Int, 0 ≤ value → value ≤ 50000000 → ∀ rest,
      Reads Jvm.getInt (int32Bytes value) value rest :=
    fun value hlow hhigh => reads_getInt (by omega) (by omega)
  obtain ⟨hfps, hwidth, hheight, hpixels, hcamera, hbitrate, hmin, hmax, hmin_le_max, hfocus⟩ := h
  have hcamera' : (0 ≤ fields.cameraValue && fields.cameraValue ≤ 1) = true := by
    simpa using hcamera
  have hfps' : (1 ≤ fields.fps && fields.fps ≤ 60) = true := by simpa using hfps
  have hresolution : (160 ≤ fields.width && fields.width ≤ 8192 && 160 ≤ fields.height &&
      fields.height ≤ 8192 && fields.width * fields.height ≤ 16777216) = true := by
    simpa [and_assoc] using ⟨hwidth.1, hwidth.2, hheight.1, hheight.2, hpixels⟩
  have hrates : (bitrateInRange fields.bitrate && bitrateInRange fields.minBitrate &&
      bitrateInRange fields.maxBitrate && fields.minBitrate ≤ fields.maxBitrate) = true := by
    simpa [bitrateInRange, and_assoc] using
      ⟨hbitrate.1, hbitrate.2, hmin.1, hmin.2, hmax.1, hmax.2, hmin_le_max⟩
  have hfocus' : (0 ≤ fields.focusMode && fields.focusMode ≤ 1) = true := by simpa using hfocus
  rw [← List.append_nil (encodeFields fields)]
  unfold readFields
  refine (reads_requireRemaining hroom _).then ?_
  simp only [encodeFields, List.append_assoc]
  refine (hint fields.fps (by omega) (by omega) _).bind ?_
  refine (hint fields.width (by omega) (by omega) _).bind ?_
  refine (hint fields.height (by omega) (by omega) _).bind ?_
  refine (hint fields.cameraValue (by omega) (by omega) _).bind ?_
  refine (reads_requireThat hcamera' _ _).then ?_
  refine (reads_readBool fields.adaptiveBitrate _).bind ?_
  refine (hint fields.bitrate (by omega) (by omega) _).bind ?_
  refine (hint fields.minBitrate (by omega) (by omega) _).bind ?_
  refine (hint fields.maxBitrate (by omega) (by omega) _).bind ?_
  refine (reads_readBool fields.stabilization _).bind ?_
  refine (reads_readBool fields.flash _).bind ?_
  refine (reads_readBool fields.h265 _).bind ?_
  refine (hint fields.focusMode (by omega) (by omega) _).bind ?_
  refine (reads_requireThat hfps' _ _).then ?_
  refine (reads_requireThat hresolution _ _).then ?_
  refine (reads_requireThat hrates _ _).then ?_
  refine (reads_requireThat hfocus' _ _).then ?_
  exact reads_pure fields rest

/-- The class that a filter name of the message selects. -/
def classOf (name : Bytes) : FilterClass :=
  ((decodeUtf8 name).bind getClass).getD .noFilterRender

variable {newInstance : FilterClass → Bool}

/-- A filter of the message that the filter loop accepts. -/
structure AdmittedFilter (newInstance : FilterClass → Bool) (filter : Bytes × Int) : Prop where
  short : filter.1.length ≤ 128
  value : -100 ≤ filter.2 ∧ filter.2 ≤ 100
  known : ∃ text info, decodeUtf8 filter.1 = some text ∧ find text = some info ∧
    info.category = .correction ∧ newInstance info.filterClass = true

theorem reads_readFilter {filter : Bytes × Int} (h : AdmittedFilter newInstance filter)
    (rest : Bytes) :
    Reads (readFilter newInstance) (encodeFilter filter) (classOf filter.1, filter.2) rest := by
  obtain ⟨text, info, htext, hfind, hcategory, hnew⟩ := h.known
  have hvalue := h.value
  have hroom : 4 ≤ (int32Bytes filter.2 ++ [] ++ rest).length := by
    simp only [List.length_append, int32Bytes_length]
    omega
  have hrange : (-100 ≤ filter.2 && filter.2 ≤ 100) = true := by simpa using hvalue
  have hcreate : create newInstance text = some info.filterClass := by
    simp only [create, hfind, hnew, ↓reduceIte]
  have hclass : classOf filter.1 = info.filterClass := by
    simp only [classOf, htext, Option.bind_some, getClass, hfind, Option.map_some, Option.getD_some]
  have hcorrection : decide (getCategory text = .correction) = true := by
    simp only [getCategory, hfind, hcategory, decide_true]
  rw [← List.append_nil (encodeFilter filter), encodeFilter, List.append_assoc, hclass]
  unfold readFilter
  refine (reads_readString h.short htext _).bind ?_
  refine (reads_requireRemaining hroom _).then ?_
  refine (reads_getInt (by omega) (by omega) _).bind ?_
  refine (reads_requireThat hrange _ _).then ?_
  rw [hcreate]
  refine (reads_requireThat hcorrection _ _).then ?_
  exact reads_pure (info.filterClass, filter.2) rest

theorem reads_readActivation {fields : Fields} (hfields : fields.Accepted)
    {filters : List (Bytes × Int)} (hcount : filters.length ≤ 128)
    (hfilters : ∀ filter ∈ filters, AdmittedFilter newInstance filter)
    {effect : Bytes} (hshort : effect.length ≤ 128) {effectName : JString}
    (heffect : decodeUtf8 effect = some effectName) :
    Reads (readActivation newInstance) (encodeActivation fields filters effect)
      ⟨fields, filters.map fun filter => (classOf filter.1, filter.2), effectName⟩ [] := by
  have hroom : 2 ≤ (beBytes 2 filters.length ++ (filters.flatMap encodeFilter ++
      (encodeText effect ++ [])) ++ []).length := by
    simp only [List.length_append, beBytes_length]
    omega
  have hloop := Reads.replicate filters
    (fun filter hmem rest => reads_readFilter (hfilters filter hmem) rest)
    (encodeText effect ++ [] ++ [])
  unfold readActivation encodeActivation
  rw [← List.append_nil (encodeText effect)]
  refine (reads_readFields hfields _).bind ?_
  refine (reads_requireRemaining hroom _).then ?_
  refine (reads_getUnsignedShort (show filters.length < 65536 by omega) _).bind ?_
  refine (reads_requireThat (decide_eq_true hcount) _ _).then ?_
  refine hloop.bind ?_
  refine (reads_readString hshort heffect _).bind ?_
  refine (reads_requireFinished _).then ?_
  exact reads_pure _ []

/-- On a well-formed message only the effect is left to decide. -/
theorem deserialize_encoded {fields : Fields} (hfields : fields.Accepted)
    {filters : List (Bytes × Int)} (hcount : filters.length ≤ 128)
    (hfilters : ∀ filter ∈ filters, AdmittedFilter newInstance filter)
    {effect : Bytes} (hshort : effect.length ≤ 128) {effectName : JString}
    (heffect : decodeUtf8 effect = some effectName) (fresh : Nat) :
    deserialize newInstance fresh (encodeActivation fields filters effect) =
      match effectOf newInstance effectName with
      | .error failure => .error (.thrown failure)
      | .ok effect => .ok (optionsOf fresh
          ⟨fields, filters.map fun filter => (classOf filter.1, filter.2), effectName⟩ effect) := by
  have hlength := encodeActivation_length fields (fun filter hmem => (hfilters filter hmem).short)
    hshort
  have hsize : (40 ≤ (encodeActivation fields filters effect).length &&
      (encodeActivation fields filters effect).length ≤ MAX_PACKET) = true := by
    have hmax : MAX_PACKET = 65536 := rfl
    rw [Bool.and_eq_true, decide_eq_true_eq, decide_eq_true_eq, hmax]
    omega
  have hread := reads_readActivation hfields hcount hfilters hshort heffect []
  rw [List.nil_append, List.append_nil, List.length_nil, Nat.zero_add] at hread
  unfold deserialize
  rw [hsize, hread]
  rfl

end Layout

end StreamOptions

end OpenCam.Android
