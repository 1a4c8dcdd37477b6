import OpenCam.Android.ControlProtocol
import OpenCam.Android.FilterRepository
import OpenCam.Jvm.ByteBuffer
import OpenCam.Linux.DeviceDescriptor

/-!
`DeviceDescriptor.kt`: how the phone writes its descriptor. The buffer is
sized by a computation of its own, so that it is filled exactly is a theorem;
what it then contains is the grammar that `device_descriptor.cpp` reads.
-/

namespace OpenCam.Android

open Octets Jvm FilterRepository

structure DeviceDescriptor where
  name : JString
  url : JString
  backResolutions : List (Int × Int)
  frontResolutions : List (Int × Int)
  filterInfos : List FilterInfo
deriving DecidableEq, Repr

namespace DeviceDescriptor

/-- The condition on a resolution. -/
def admitsResolution (resolution : Int × Int) : Bool :=
  1 ≤ resolution.1 && resolution.1 ≤ 8192 && 1 ≤ resolution.2 && resolution.2 ≤ 8192 &&
    resolution.1 * resolution.2 ≤ 16777216

def requiredSize (descriptor : DeviceDescriptor) : Nat :=
  (2 + (toUtf8 descriptor.name).length) + (2 + (toUtf8 descriptor.url).length) +
    (2 + descriptor.frontResolutions.length * 4) + (2 + descriptor.backResolutions.length * 4) +
    2 + (descriptor.filterInfos.map fun info => 2 + (toUtf8 info.name).length + 1).sum

def putString (text : JString) (buffer : ByteBuffer) : Except Throwable ByteBuffer := do
  let bytes := toUtf8 text
  let buffer ← buffer.putShort bytes.length
  buffer.put bytes

def putResolution (buffer : ByteBuffer) (resolution : Int × Int) :
    Except Throwable ByteBuffer := do
  let buffer ← buffer.putShort resolution.1
  buffer.putShort resolution.2

def putFilter (buffer : ByteBuffer) (info : FilterInfo) : Except Throwable ByteBuffer := do
  let buffer ← putString info.name buffer
  buffer.putByte info.category.ordinal

/-- The writes of `serialize`, in order. -/
def putFields (descriptor : DeviceDescriptor) (buffer : ByteBuffer) :
    Except Throwable ByteBuffer := do
  let buffer ← putString descriptor.name buffer
  let buffer ← putString descriptor.url buffer
  let buffer ← buffer.putShort descriptor.frontResolutions.length
  let buffer ← buffer.forEach descriptor.frontResolutions putResolution
  let buffer ← buffer.putShort descriptor.backResolutions.length
  let buffer ← buffer.forEach descriptor.backResolutions putResolution
  let buffer ← buffer.putShort descriptor.filterInfos.length
  buffer.forEach descriptor.filterInfos putFilter

/-- `serialize` up to the buffer whose array it returns. -/
def filledBuffer (descriptor : DeviceDescriptor) : Except Throwable ByteBuffer := do
  require' (isNotBlank descriptor.name && (toUtf8 descriptor.name).length ≤ 256)
  require' ((toUtf8 descriptor.url).length ≤ 2048)
  require' (descriptor.frontResolutions.length ≤ 128 && descriptor.backResolutions.length ≤ 128 &&
    descriptor.filterInfos.length ≤ 128)
  (descriptor.frontResolutions ++ descriptor.backResolutions).forM fun resolution =>
    require' (admitsResolution resolution)
  descriptor.filterInfos.forM fun info =>
    require' (1 ≤ (toUtf8 info.name).length && (toUtf8 info.name).length ≤ 128)
  let buffer := ByteBuffer.allocate descriptor.requiredSize
  require' (descriptor.requiredSize ≤ MAX_PAYLOAD)
  putFields descriptor buffer

def serialize (descriptor : DeviceDescriptor) : Except Throwable Bytes := do
  let buffer ← filledBuffer descriptor
  pure buffer.array

section Writing

/-- The descriptors on which every `require` of `serialize` passes. -/
structure Admitted (descriptor : DeviceDescriptor) : Prop where
  name : isNotBlank descriptor.name = true
  name_short : (toUtf8 descriptor.name).length ≤ 256
  url_short : (toUtf8 descriptor.url).length ≤ 2048
  front_short : descriptor.frontResolutions.length ≤ 128
  back_short : descriptor.backResolutions.length ≤ 128
  filters_short : descriptor.filterInfos.length ≤ 128
  front : ∀ resolution ∈ descriptor.frontResolutions, admitsResolution resolution = true
  back : ∀ resolution ∈ descriptor.backResolutions, admitsResolution resolution = true
  filters : ∀ info ∈ descriptor.filterInfos,
    1 ≤ (toUtf8 info.name).length ∧ (toUtf8 info.name).length ≤ 128

/-- A resolution as the Linux controller holds it. -/
def wireResolution (resolution : Int × Int) : Linux.Resolution :=
  ⟨UInt16.ofNat resolution.1.toNat, UInt16.ofNat resolution.2.toNat⟩

def wireFilter (info : FilterInfo) : Linux.Filter :=
  ⟨toUtf8 info.name, UInt8.ofNat info.category.ordinal⟩

/-- The descriptor whose encoding `serialize` writes. -/
def wire (descriptor : DeviceDescriptor) : Linux.DeviceDescriptor where
  name := toUtf8 descriptor.name
  rtspUrl := toUtf8 descriptor.url
  frontResolutions := descriptor.frontResolutions.map wireResolution
  backResolutions := descriptor.backResolutions.map wireResolution
  filters := descriptor.filterInfos.map wireFilter

theorem admitsResolution_iff (resolution : Int × Int) : admitsResolution resolution = true ↔
    1 ≤ resolution.1 ∧ resolution.1 ≤ 8192 ∧ 1 ≤ resolution.2 ∧ resolution.2 ≤ 8192 ∧
      resolution.1 * resolution.2 ≤ 16777216 := by
  simp [admitsResolution, and_assoc]

theorem appends_size {size : Nat} (hsize : size < 65536) :
    ByteBuffer.Appends (fun buffer => buffer.putShort size) (beBytes 2 size) := by
  have hlow : ((size : Int) % 2 ^ 16).toNat = size := by omega
  simpa only [hlow] using ByteBuffer.appends_putShort size

theorem appends_putString {text : JString} (hshort : (toUtf8 text).length < 65536) :
    ByteBuffer.Appends (putString text) (Linux.encodeString (toUtf8 text)) :=
  (appends_size hshort).andThen (ByteBuffer.appends_put (toUtf8 text))

theorem appends_putResolution {resolution : Int × Int}
    (hadmitted : admitsResolution resolution = true) :
    ByteBuffer.Appends (fun buffer => putResolution buffer resolution)
      (Linux.encodeResolution (wireResolution resolution)) := by
  have hside : ∀ side : Int, 1 ≤ side → side ≤ 8192 →
      (side % 2 ^ 16).toNat = (UInt16.ofNat side.toNat).toNat := by
    intro side hlow hhigh
    rw [UInt16.toNat_ofNat']
    omega
  obtain ⟨hwidth, hwidth', hheight, hheight', -⟩ := (admitsResolution_iff _).mp hadmitted
  have hputs := (ByteBuffer.appends_putShort resolution.1).andThen
    (ByteBuffer.appends_putShort resolution.2)
  rw [hside _ hwidth hwidth', hside _ hheight hheight'] at hputs
  exact hputs

theorem appends_putFilter {info : FilterInfo} (hshort : (toUtf8 info.name).length ≤ 128) :
    ByteBuffer.Appends (fun buffer => putFilter buffer info)
      (Linux.encodeFilter (wireFilter info)) := by
  have hordinal : beBytes 1 ((info.category.ordinal : Int) % 2 ^ 8).toNat =
      [UInt8.ofNat info.category.ordinal] := by
    cases info.category <;> rfl
  have hputs := (appends_putString (show (toUtf8 info.name).length < 65536 by omega)).andThen
    (ByteBuffer.appends_putByte info.category.ordinal)
  rw [hordinal] at hputs
  exact hputs

/-- A counted list of the format. -/
theorem appends_counted {α β : Type} {items : List α} (hshort : items.length ≤ 128)
    (convert : α → β) {write : ByteBuffer → α → Except Throwable ByteBuffer} {encode : β → Bytes}
    (hwrite : ∀ item ∈ items,
      ByteBuffer.Appends (fun buffer => write buffer item) (encode (convert item))) :
    ByteBuffer.Appends
      (fun buffer => buffer.putShort items.length >>= ByteBuffer.forEach items write)
      (Linux.encodeList encode (items.map convert)) := by
  have hitems := ByteBuffer.appends_forEach items hwrite
  have hcounted := (appends_size (show items.length < 65536 by omega)).andThen hitems
  rw [Linux.encodeList, List.length_map, List.flatMap_map]
  exact hcounted

theorem appends_putFields {descriptor : DeviceDescriptor} (h : descriptor.Admitted) :
    ByteBuffer.Appends descriptor.putFields (Linux.encodeDeviceDescriptor descriptor.wire) := by
  have hname := appends_putString (show (toUtf8 descriptor.name).length < 65536 by
    have := h.name_short
    omega)
  have hurl := appends_putString (show (toUtf8 descriptor.url).length < 65536 by
    have := h.url_short
    omega)
  have hfront := appends_counted h.front_short wireResolution
    fun resolution hmem => appends_putResolution (h.front resolution hmem)
  have hback := appends_counted h.back_short wireResolution
    fun resolution hmem => appends_putResolution (h.back resolution hmem)
  have hfilters := appends_counted h.filters_short wireFilter
    fun info hmem => appends_putFilter (h.filters info hmem).2
  have hall := hname.andThen (hurl.andThen (hfront.andThen (hback.andThen hfilters)))
  have hbytes : Linux.encodeDeviceDescriptor descriptor.wire =
      Linux.encodeString (toUtf8 descriptor.name) ++ (Linux.encodeString (toUtf8 descriptor.url) ++
        (Linux.encodeList Linux.encodeResolution (descriptor.frontResolutions.map wireResolution) ++
        (Linux.encodeList Linux.encodeResolution (descriptor.backResolutions.map wireResolution) ++
        Linux.encodeList Linux.encodeFilter (descriptor.filterInfos.map wireFilter)))) := by
    simp only [Linux.encodeDeviceDescriptor, wire, List.append_assoc]
  rw [hbytes]
  intro buffer capacity content hholds hroom
  obtain ⟨after, hafter, hholds'⟩ := hall buffer capacity content hholds hroom
  refine ⟨after, ?_, hholds'⟩
  rw [← hafter]
  simp only [putFields, bind_assoc]

theorem encodeList_length {α β : Type} (items : List α) (convert : α → β) (encode : β → Bytes)
    (size : α → Nat) (hsize : ∀ item, (encode (convert item)).length = size item) :
    (Linux.encodeList encode (items.map convert)).length = 2 + (items.map size).sum := by
  rw [Linux.encodeList, List.length_append, beBytes_length, List.length_flatMap, List.map_map]
  congr 2
  exact List.map_congr_left fun item _ => hsize item

/-- The computed size is the size of what is written. -/
theorem encode_length (descriptor : DeviceDescriptor) :
    (Linux.encodeDeviceDescriptor descriptor.wire).length = descriptor.requiredSize := by
  have hresolutions := fun items : List (Int × Int) =>
    encodeList_length items wireResolution Linux.encodeResolution (fun _ => 4)
      (fun resolution => by simp [Linux.encodeResolution])
  have hfilters := encodeList_length descriptor.filterInfos wireFilter Linux.encodeFilter
    (fun info => 2 + (toUtf8 info.name).length + 1)
    (fun info => by simp [Linux.encodeFilter, Linux.encodeString, wireFilter, Nat.add_assoc])
  simp only [Linux.encodeDeviceDescriptor, List.length_append, wire, hresolutions, hfilters,
    Linux.encodeString, beBytes_length, List.map_const', List.sum_replicate, smul_eq_mul,
    requiredSize]
  omega

theorem requiredSize_le {descriptor : DeviceDescriptor} (h : descriptor.Admitted) :
    descriptor.requiredSize ≤ 20106 := by
  have hnames : (descriptor.filterInfos.map fun info =>
      2 + (toUtf8 info.name).length + 1).sum ≤ descriptor.filterInfos.length * 131 := by
    have hlength : (descriptor.filterInfos.map fun info =>
        2 + (toUtf8 info.name).length + 1).length = descriptor.filterInfos.length :=
      List.length_map _
    rw [← hlength, ← smul_eq_mul]
    refine List.sum_le_card_nsmul _ _ fun size hsize => ?_
    obtain ⟨info, hmem, rfl⟩ := List.mem_map.mp hsize
    have := (h.filters info hmem).2
    omega
  have hname := h.name_short
  have hurl := h.url_short
  have hfront := h.front_short
  have hback := h.back_short
  have hfilters := h.filters_short
  unfold requiredSize
  omega

/-- `List.forM` of checks succeeds when all of them hold. -/
theorem forM_require' {α : Type} (items : List α) (condition : α → Bool) :
    items.forM (fun item => require' (condition item)) = .ok () ↔
      ∀ item ∈ items, condition item = true := by
  induction items with
  | nil => simp [pure, Except.pure]
  | cons item rest ih =>
      change (require' (condition item) >>= fun _ => rest.forM _) = _ ↔ _
      rw [require', require_bind_ok, ih, List.forall_mem_cons]

/-- The encoding fits the frames of the legacy protocol. -/
theorem Admitted.encode_bounds {descriptor : DeviceDescriptor} (h : descriptor.Admitted) :
    1 ≤ (Linux.encodeDeviceDescriptor descriptor.wire).length ∧
      (Linux.encodeDeviceDescriptor descriptor.wire).length ≤ 64 * 1024 := by
  have hsize := requiredSize_le h
  rw [encode_length]
  rw [requiredSize] at *
  omega

theorem filledBuffer_ok_iff (descriptor : DeviceDescriptor) (buffer : ByteBuffer) :
    descriptor.filledBuffer = .ok buffer ↔ descriptor.Admitted ∧
      buffer = ⟨Linux.encodeDeviceDescriptor descriptor.wire, descriptor.requiredSize⟩ := by
  have hmax : (MAX_PAYLOAD : Int) = 65536 := rfl
  have hfills : descriptor.Admitted → descriptor.putFields (.allocate descriptor.requiredSize) =
      .ok ⟨Linux.encodeDeviceDescriptor descriptor.wire, descriptor.requiredSize⟩ := by
    intro h
    rw [← encode_length]
    exact (appends_putFields h).fills
  simp only [filledBuffer, unit_bind_ok, require'_ok, forM_require', Bool.and_eq_true,
    decide_eq_true_eq, List.forall_mem_append, hmax]
  constructor
  · rintro ⟨⟨hname, hname'⟩, hurl, ⟨⟨hfront, hback⟩, hfilters⟩, ⟨hfront', hback'⟩, hfilters', -, hput⟩
    have hadmitted : descriptor.Admitted :=
      ⟨hname, hname', hurl, hfront, hback, hfilters, hfront', hback', hfilters'⟩
    refine ⟨hadmitted, ?_⟩
    rw [hfills hadmitted] at hput
    exact (Except.ok.inj hput).symm
  · rintro ⟨h, rfl⟩
    have hsize := requiredSize_le h
    exact ⟨⟨h.name, h.name_short⟩, h.url_short, ⟨⟨h.front_short, h.back_short⟩, h.filters_short⟩,
      ⟨h.front, h.back⟩, h.filters, by omega, hfills h⟩

theorem serialize_ok_iff (descriptor : DeviceDescriptor) (bytes : Bytes) :
    descriptor.serialize = .ok bytes ↔
      descriptor.Admitted ∧ bytes = Linux.encodeDeviceDescriptor descriptor.wire := by
  have hbuffer : descriptor.serialize = .ok bytes ↔
      ∃ buffer, descriptor.filledBuffer = .ok buffer ∧ buffer.array = bytes := by
    unfold serialize
    cases descriptor.filledBuffer with
    | error failure => simp [bind, Except.bind]
    | ok buffer => simp [bind, Except.bind, pure, Except.pure]
  rw [hbuffer]
  constructor
  · rintro ⟨buffer, hfilled, rfl⟩
    obtain ⟨hadmitted, rfl⟩ := (filledBuffer_ok_iff _ _).mp hfilled
    exact ⟨hadmitted, rfl⟩
  · rintro ⟨hadmitted, rfl⟩
    exact ⟨_, (filledBuffer_ok_iff _ _).mpr ⟨hadmitted, rfl⟩, rfl⟩

end Writing

section Reading

theorem Admitted.bounded {descriptor : DeviceDescriptor} (h : descriptor.Admitted) :
    Linux.BoundedDescriptor descriptor.wire where
  name := lt_of_le_of_lt h.name_short (by norm_num)
  rtspUrl := lt_of_le_of_lt h.url_short (by norm_num)
  frontResolutions := by
    have := h.front_short
    simp only [wire, List.length_map]
    omega
  backResolutions := by
    have := h.back_short
    simp only [wire, List.length_map]
    omega
  filters := by
    have := h.filters_short
    simp only [wire, List.length_map]
    omega
  filterNames := by
    intro filter hmem
    obtain ⟨info, hinfo, rfl⟩ := List.mem_map.mp hmem
    exact lt_of_le_of_lt (h.filters info hinfo).2 (by norm_num)

/-- The strings of a descriptor. -/
def strings (descriptor : DeviceDescriptor) : List JString :=
  descriptor.name :: descriptor.url :: descriptor.filterInfos.map FilterInfo.name

/-- No byte of the string's UTF-8 is a control character. -/
def Printable (text : JString) : Prop :=
  ∀ character ∈ toUtf8 text, ¬ (character < 0x20 ∨ character = 0x7f)

-- through the bytes of the text, not through all octets
instance (text : JString) : Decidable (Printable text) :=
  List.decidableBAll (fun character => ¬ (character < 0x20 ∨ character = 0x7f)) (toUtf8 text)

theorem printable_iff (text : JString) (hshort : (toUtf8 text).length ≤ 2048) :
    Linux.ValidString (toUtf8 text) ↔ Printable text := by
  have hbyte : ∀ character : UInt8,
      (0x20 ≤ character ∧ character ≠ 0x7f) ↔ ¬ (character < 0x20 ∨ character = 0x7f) := by
    intro character
    rw [not_or, UInt8.not_lt]
  constructor
  · intro h character hmem
    exact (hbyte character).mp (h.printable character hmem)
  · intro h
    exact ⟨hshort, toUtf8_wellFormed text, fun character hmem =>
      (hbyte character).mpr (h character hmem)⟩

theorem wireResolution_valid {resolution : Int × Int} (h : admitsResolution resolution = true) :
    Linux.ValidResolution (wireResolution resolution) := by
  obtain ⟨hwidth, hwidth', hheight, hheight', -⟩ := (admitsResolution_iff _).mp h
  constructor
  all_goals
    simp only [wireResolution, UInt16.toNat_ofNat']
    omega

theorem wireResolution_inv {resolution : Int × Int} (h : admitsResolution resolution = true) :
    (((wireResolution resolution).width.toNat : Int),
      ((wireResolution resolution).height.toNat : Int)) = resolution := by
  obtain ⟨hwidth, hwidth', hheight, hheight', -⟩ := (admitsResolution_iff _).mp h
  obtain ⟨width, height⟩ := resolution
  simp only [wireResolution, UInt16.toNat_ofNat', Prod.mk.injEq] at *
  omega

theorem wire_valid_iff {descriptor : DeviceDescriptor} (h : descriptor.Admitted) :
    Linux.ValidDeviceDescriptor descriptor.wire ↔
      descriptor.url ≠ [] ∧ ∀ text ∈ descriptor.strings, Printable text := by
  have hname := printable_iff descriptor.name (h.name_short.trans (by norm_num))
  have hurl := printable_iff descriptor.url h.url_short
  have hfilter := fun info hmem =>
    printable_iff info.name ((h.filters info hmem).2.trans (by norm_num))
  have hresolutions : ∀ resolutions : List (Int × Int), resolutions.length ≤ 128 →
      (∀ resolution ∈ resolutions, admitsResolution resolution = true) →
      Linux.ValidList Linux.ValidResolution (resolutions.map wireResolution) := by
    intro resolutions hshort hall
    refine ⟨by simpa using hshort, fun resolution hmem => ?_⟩
    obtain ⟨original, horiginal, rfl⟩ := List.mem_map.mp hmem
    exact wireResolution_valid (hall original horiginal)
  constructor
  · intro hvalid
    refine ⟨fun hnil => hvalid.rtspUrl_ne_nil (toUtf8_eq_nil.mpr hnil), ?_⟩
    simp only [strings, List.forall_mem_cons, List.forall_mem_map]
    exact ⟨hname.mp hvalid.name, hurl.mp hvalid.rtspUrl, fun info hmem =>
      (hfilter info hmem).mp (hvalid.filters.each _ (List.mem_map_of_mem hmem)).name⟩
  · rintro ⟨hne, hstrings⟩
    simp only [strings, List.forall_mem_cons, List.forall_mem_map] at hstrings
    obtain ⟨hname', hurl', hfilters'⟩ := hstrings
    refine ⟨hname.mpr hname', ?_, hurl.mpr hurl', ?_, hresolutions _ h.front_short h.front,
      hresolutions _ h.back_short h.back, ⟨?_, ?_⟩⟩
    · exact fun hnil => ne_nil_of_isNotBlank h.name (toUtf8_eq_nil.mp hnil)
    · exact fun hnil => hne (toUtf8_eq_nil.mp hnil)
    · simpa only [wire, List.length_map] using h.filters_short
    · intro filter hmem
      obtain ⟨info, hinfo, rfl⟩ := List.mem_map.mp hmem
      refine ⟨(hfilter info hinfo).mpr (hfilters' info hinfo), ?_⟩
      simp only [wireFilter]
      cases info.category <;> decide

/-- What the Linux controller makes of a serialized descriptor. -/
theorem parse_serialized_iff {descriptor : DeviceDescriptor} (h : descriptor.Admitted)
    (parsed : Linux.DeviceDescriptor) :
    Linux.parseDeviceDescriptor (Linux.encodeDeviceDescriptor descriptor.wire) = .ok parsed ↔
      (descriptor.url ≠ [] ∧ ∀ text ∈ descriptor.strings, Printable text) ∧
        parsed = descriptor.wire := by
  have hsize := requiredSize_le h
  rw [Linux.parseDeviceDescriptor_ok_iff, encode_length, ← wire_valid_iff h]
  constructor
  · rintro ⟨-, hvalid, hbytes⟩
    obtain rfl := Linux.encodeDeviceDescriptor_injective h.bounded hvalid.bounded hbytes
    exact ⟨hvalid, rfl⟩
  · rintro ⟨hvalid, rfl⟩
    exact ⟨by omega, hvalid, rfl⟩

end Reading

/-- A descriptor that the phone serializes fills its buffer, fits the
authenticated channel and, if its URL is not empty and its strings are
printable, is read back on Linux field by field. -/
theorem serialize_faithful (descriptor : DeviceDescriptor) (bytes : Bytes)
    (hbytes : descriptor.serialize = .ok bytes) :
    bytes.length = descriptor.requiredSize ∧
    descriptor.filledBuffer = .ok ⟨bytes, descriptor.requiredSize⟩ ∧
    descriptor.requiredSize + ENCRYPTED_OVERHEAD ≤ MAX_PAYLOAD ∧
    ((∃ parsed, Linux.parseDeviceDescriptor bytes = .ok parsed) ↔
      descriptor.url ≠ [] ∧ ∀ text ∈ descriptor.strings, Printable text) ∧
    ∀ parsed, Linux.parseDeviceDescriptor bytes = .ok parsed →
      parsed.name = toUtf8 descriptor.name ∧
      parsed.rtspUrl = toUtf8 descriptor.url ∧
      parsed.frontResolutions.map (fun resolution =>
        ((resolution.width.toNat : Int), (resolution.height.toNat : Int))) =
          descriptor.frontResolutions ∧
      parsed.backResolutions.map (fun resolution =>
        ((resolution.width.toNat : Int), (resolution.height.toNat : Int))) =
          descriptor.backResolutions ∧
      parsed.filters.map (fun filter => (filter.name, filter.category.toNat)) =
        descriptor.filterInfos.map (fun info => (toUtf8 info.name, info.category.ordinal)) := by
  obtain ⟨h, rfl⟩ := (serialize_ok_iff descriptor bytes).mp hbytes
  have hsize := requiredSize_le h
  refine ⟨encode_length descriptor, (filledBuffer_ok_iff _ _).mpr ⟨h, rfl⟩, ?_, ?_, ?_⟩
  · simp only [ENCRYPTED_OVERHEAD, SEQUENCE_SIZE, GCM_TAG_SIZE, MAX_PAYLOAD]
    omega
  · simp only [parse_serialized_iff h, exists_and_left, exists_eq, and_true]
  · intro parsed hparsed
    obtain ⟨-, rfl⟩ := (parse_serialized_iff h parsed).mp hparsed
    have hresolutions : ∀ resolutions : List (Int × Int),
        (∀ resolution ∈ resolutions, admitsResolution resolution = true) →
        (resolutions.map wireResolution).map (fun resolution =>
          ((resolution.width.toNat : Int), (resolution.height.toNat : Int))) = resolutions := by
      intro resolutions hall
      rw [List.map_map]
      conv_rhs => rw [← List.map_id resolutions]
      exact List.map_congr_left fun resolution hmem => wireResolution_inv (hall resolution hmem)
    refine ⟨rfl, rfl, hresolutions _ h.front, hresolutions _ h.back, ?_⟩
    rw [wire, List.map_map]
    refine List.map_congr_left fun info _ => ?_
    simp only [Function.comp, wireFilter]
    cases info.category <;> rfl

def sample : DeviceDescriptor where
  name := literal "Phone"
  url := literal "rtsp://a"
  backResolutions := [(640, 480)]
  frontResolutions := []
  filterInfos := [⟨literal "Sepia", .sepiaFilterRender, .effect⟩]

def sampleBytes : Bytes :=
  [0, 5] ++ ascii "Phone" ++ [0, 8] ++ ascii "rtsp://a" ++ [0, 0] ++ [0, 1, 2, 128, 1, 224] ++
    [0, 1, 0, 5] ++ ascii "Sepia" ++ [2]

/-- The theorem at a descriptor that both sides accept. -/
theorem serialize_faithful_sample : sampleBytes.length = sample.requiredSize ∧
    ∃ parsed, Linux.parseDeviceDescriptor sampleBytes = .ok parsed := by
  have h := serialize_faithful sample sampleBytes (by decide +kernel)
  exact ⟨h.1, h.2.2.2.1.mpr ⟨by decide, by decide +kernel⟩⟩

end DeviceDescriptor

end OpenCam.Android
