import OpenCam.Linux.Utf8
import OpenCam.Bytes.Splitting

/-!
The descriptor decoder of `device_descriptor.cpp`. The readers below follow the
source's checks in their order, with the texts of its exceptions; the grammar
they accept is stated separately (`encodeDeviceDescriptor`,
`ValidDeviceDescriptor`) and the two are proved to coincide.
-/

namespace OpenCam.Linux

open Octets Octets.Reader

def MAX_DESCRIPTOR_SIZE : Nat := 64 * 1024
def MAX_STRING_SIZE : Nat := 2048
def MAX_RESOLUTIONS : UInt16 := 128
def MAX_FILTERS : UInt16 := 128
def MAX_DIMENSION : UInt16 := 8192

structure Resolution where
  width : UInt16
  height : UInt16
deriving DecidableEq, Repr

structure Filter where
  name : Bytes
  category : UInt8
deriving DecidableEq, Repr

structure DeviceDescriptor where
  name : Bytes
  rtspUrl : Bytes
  frontResolutions : List Resolution
  backResolutions : List Resolution
  filters : List Filter
deriving DecidableEq, Repr

def readUint16 : Reader String UInt16 := fun data offset =>
  if offset + 2 > data.length then
    .error (.thrown "Unexpected end of data while reading uint16")
  else do
    let high ← byteAt data offset
    let low ← byteAt data (offset + 1)
    .ok ((high.toUInt16 <<< 8) ||| low.toUInt16, offset + 2)

def isControlCharacter (character : UInt8) : Bool := character < 0x20 || character = 0x7f

def readString : Reader String Bytes := do
  let length ← readUint16
  require (length.toNat ≤ MAX_STRING_SIZE) "String exceeds protocol limit"
  let value ← take length.toNat "Unexpected end of data while reading string"
  check (isValidUtf8 value) "Invalid UTF-8 string"
  require (!value.any isControlCharacter) "Control character in descriptor string"
  Reader.pure value

/-- The body of the loop of `readResolutions`. -/
def readResolution : Reader String Resolution := do
  let width ← readUint16
  let height ← readUint16
  require (!(width = 0 || height = 0 || width > MAX_DIMENSION || height > MAX_DIMENSION))
    "Resolution outside allowed range"
  Reader.pure ⟨width, height⟩

def readResolutions : Reader String (List Resolution) := do
  let count ← readUint16
  require (count ≤ MAX_RESOLUTIONS) "Too many resolutions"
  replicate readResolution count.toNat

/-- The body of the loop of `readFilters`. -/
def readFilter : Reader String Filter := do
  let name ← readString
  let category ← byte "Unexpected end of data while reading filter category"
  require (category ≤ 4) "Unknown filter category"
  Reader.pure ⟨name, category⟩

def readFilters : Reader String (List Filter) := do
  let count ← readUint16
  require (count ≤ MAX_FILTERS) "Too many filters"
  replicate readFilter count.toNat

/-- The fields of `parseDeviceDescriptor`, in order. -/
def readDescriptorFields : Reader String DeviceDescriptor := do
  let name ← readString
  let rtspUrl ← readString
  require (!(name.isEmpty || rtspUrl.isEmpty)) "Required descriptor field is empty"
  let frontResolutions ← readResolutions
  let backResolutions ← readResolutions
  let filters ← readFilters
  Reader.pure ⟨name, rtspUrl, frontResolutions, backResolutions, filters⟩

def parseDeviceDescriptor (data : Bytes) : Except (Fault String) DeviceDescriptor :=
  if data.length > MAX_DESCRIPTOR_SIZE then
    .error (.thrown "Descriptor exceeds protocol limit")
  else
    match readDescriptorFields data 0 with
    | .error fault => .error fault
    | .ok (descriptor, offset) =>
        if offset ≠ data.length then
          .error (.thrown "Unexpected trailing data in DeviceDescriptor")
        else .ok descriptor

section Grammar

def encodeString (value : Bytes) : Bytes := beBytes 2 value.length ++ value

def encodeResolution (resolution : Resolution) : Bytes :=
  beBytes 2 resolution.width.toNat ++ beBytes 2 resolution.height.toNat

def encodeFilter (filter : Filter) : Bytes := encodeString filter.name ++ [filter.category]

/-- A count and that many encoded items. -/
def encodeList {α : Type} (encode : α → Bytes) (items : List α) : Bytes :=
  beBytes 2 items.length ++ items.flatMap encode

def encodeDeviceDescriptor (descriptor : DeviceDescriptor) : Bytes :=
  encodeString descriptor.name ++ encodeString descriptor.rtspUrl ++
    encodeList encodeResolution descriptor.frontResolutions ++
    encodeList encodeResolution descriptor.backResolutions ++
    encodeList encodeFilter descriptor.filters

/-- A protocol string: short, well-formed UTF-8 and free of control bytes. -/
structure ValidString (value : Bytes) : Prop where
  short : value.length ≤ 2048
  utf8 : WellFormedUtf8 value
  printable : ∀ character ∈ value, 0x20 ≤ character ∧ character ≠ 0x7f

structure ValidResolution (resolution : Resolution) : Prop where
  width : 1 ≤ resolution.width.toNat ∧ resolution.width.toNat ≤ 8192
  height : 1 ≤ resolution.height.toNat ∧ resolution.height.toNat ≤ 8192

structure ValidFilter (filter : Filter) : Prop where
  name : ValidString filter.name
  category : filter.category ≤ 4

structure ValidList {α : Type} (Valid : α → Prop) (items : List α) : Prop where
  short : items.length ≤ 128
  each : ∀ item ∈ items, Valid item

structure ValidDeviceDescriptor (descriptor : DeviceDescriptor) : Prop where
  name : ValidString descriptor.name
  name_ne_nil : descriptor.name ≠ []
  rtspUrl : ValidString descriptor.rtspUrl
  rtspUrl_ne_nil : descriptor.rtspUrl ≠ []
  frontResolutions : ValidList ValidResolution descriptor.frontResolutions
  backResolutions : ValidList ValidResolution descriptor.backResolutions
  filters : ValidList ValidFilter descriptor.filters

end Grammar

section Unambiguous

/-- Lengths and counts that their two-byte fields can hold. -/
structure BoundedDescriptor (descriptor : DeviceDescriptor) : Prop where
  name : descriptor.name.length < 65536
  rtspUrl : descriptor.rtspUrl.length < 65536
  frontResolutions : descriptor.frontResolutions.length < 65536
  backResolutions : descriptor.backResolutions.length < 65536
  filters : descriptor.filters.length < 65536
  filterNames : ∀ filter ∈ descriptor.filters, filter.name.length < 65536

theorem ValidDeviceDescriptor.bounded {descriptor : DeviceDescriptor}
    (h : ValidDeviceDescriptor descriptor) : BoundedDescriptor descriptor where
  name := lt_of_le_of_lt h.name.short (by norm_num)
  rtspUrl := lt_of_le_of_lt h.rtspUrl.short (by norm_num)
  frontResolutions := lt_of_le_of_lt h.frontResolutions.short (by norm_num)
  backResolutions := lt_of_le_of_lt h.backResolutions.short (by norm_num)
  filters := lt_of_le_of_lt h.filters.short (by norm_num)
  filterNames := fun filter hmem =>
    lt_of_le_of_lt (h.filters.each filter hmem).name.short (by norm_num)

theorem splits_encodeResolution : Splits encodeResolution (fun _ => True) := by
  refine .fixed 4 (fun resolution => by simp [encodeResolution]) ?_
  intro left right _ _ h
  obtain ⟨hwidth, hheight⟩ := List.append_inj h (by simp)
  have hsame : ∀ first second : UInt16, beBytes 2 first.toNat = beBytes 2 second.toNat →
      first = second := fun first second hbytes =>
    UInt16.toNat_inj.mp (beBytes_inj first.toNat_lt second.toNat_lt hbytes)
  have hwidth' := hsame _ _ hwidth
  have hheight' := hsame _ _ hheight
  obtain ⟨width, height⟩ := left
  exact Resolution.mk.injEq .. ▸ ⟨hwidth', hheight'⟩

theorem splits_encodeFilter : Splits encodeFilter (fun filter => filter.name.length < 65536) := by
  intro left right front back hleft hright h
  rw [encodeFilter, encodeFilter, List.append_assoc, List.append_assoc] at h
  obtain ⟨hname, htail⟩ := Splits.lengthPrefixed _ _ _ _ hleft hright h
  obtain ⟨name, category⟩ := left
  obtain ⟨hcategory, hrest⟩ := List.cons.inj htail
  exact ⟨Filter.mk.injEq .. ▸ ⟨hname, hcategory⟩, hrest⟩

/-- No byte string encodes two descriptors. -/
theorem encodeDeviceDescriptor_injective {left right : DeviceDescriptor}
    (hleft : BoundedDescriptor left) (hright : BoundedDescriptor right)
    (h : encodeDeviceDescriptor left = encodeDeviceDescriptor right) : left = right := by
  simp only [encodeDeviceDescriptor, List.append_assoc] at h
  obtain ⟨hname, h⟩ := Splits.lengthPrefixed _ _ _ _ hleft.name hright.name h
  obtain ⟨hurl, h⟩ := Splits.lengthPrefixed _ _ _ _ hleft.rtspUrl hright.rtspUrl h
  obtain ⟨hfront, h⟩ := splits_encodeResolution.counted _ _ _ _
    ⟨hleft.frontResolutions, fun _ _ => trivial⟩ ⟨hright.frontResolutions, fun _ _ => trivial⟩ h
  obtain ⟨hback, h⟩ := splits_encodeResolution.counted _ _ _ _
    ⟨hleft.backResolutions, fun _ _ => trivial⟩ ⟨hright.backResolutions, fun _ _ => trivial⟩ h
  have hfilters := splits_encodeFilter.counted.injective
    ⟨hleft.filters, hleft.filterNames⟩ ⟨hright.filters, hright.filterNames⟩ h
  exact DeviceDescriptor.mk.injEq .. ▸ ⟨hname, hurl, hfront, hback, hfilters⟩

end Unambiguous

section Exactness

/-- Two bytes behind a bounds check, whatever the check is written as. -/
theorem exact_uint16 {reader : Reader String UInt16} {short : String}
    (hreader : ∀ data offset, offset ≤ data.length → reader data offset =
      if offset + 2 > data.length then .error (.thrown short)
      else do
        let high ← byteAt data offset
        let low ← byteAt data (offset + 1)
        .ok ((high.toUInt16 <<< 8) ||| low.toUInt16, offset + 2)) :
    Exact reader (fun value => beBytes 2 value.toNat) (fun _ => True) where
  reads := by
    intro data offset value next hoffset
    rw [hreader data offset hoffset]
    by_cases hshort : offset + 2 > data.length
    · simp only [hshort, ↓reduceIte, reduceCtorEq, true_and, false_iff]
      rintro ⟨_, hstart⟩
      have := hstart.length_le
      rw [beBytes_length, List.length_drop] at this
      omega
    · have h0 : offset < data.length := by omega
      have h1 : offset + 1 < data.length := by omega
      have hvalue : ((data[offset].toUInt16 <<< 8) ||| data[offset + 1].toUInt16).toNat =
          beNat [data[offset], data[offset + 1]] := by
        have hhigh := data[offset].toNat_lt
        rw [UInt16.toNat_or, UInt16.toNat_shiftLeft, UInt8.toNat_toUInt16, UInt8.toNat_toUInt16,
          show (8 : UInt16).toNat % 16 = 8 from rfl, Nat.shiftLeft_eq,
          Nat.mod_eq_of_lt (by omega), ← Nat.shiftLeft_eq, shift_or_byte]
        simp [beNat_cons]
      have hdrop : data.drop offset = [data[offset], data[offset + 1]] ++ data.drop (offset + 2) := by
        rw [List.drop_eq_getElem_cons h0, List.drop_eq_getElem_cons h1]
        rfl
      have hstart : beBytes 2 value.toNat <+: data.drop offset ↔
          beBytes 2 value.toNat = [data[offset], data[offset + 1]] := by
        rw [List.prefix_iff_eq_take, beBytes_length, hdrop]
        rfl
      rw [hstart, beBytes_eq_iff (by rfl) (by simpa using value.toNat_lt), ← hvalue,
        UInt16.toNat_inj]
      simp only [hshort, ↓reduceIte, byteAt, List.getElem?_eq_getElem h0,
        List.getElem?_eq_getElem h1, true_and, beBytes_length]
      constructor
      · intro h
        cases h
        exact ⟨rfl, rfl⟩
      · rintro ⟨rfl, rfl⟩
        rfl
  inBounds := by
    intro data offset index hoffset h
    rw [hreader data offset hoffset] at h
    by_cases hshort : offset + 2 > data.length
    · simp [hshort] at h
    · simp only [hshort, ↓reduceIte, byteAt,
        List.getElem?_eq_getElem (show offset < data.length by omega),
        List.getElem?_eq_getElem (show offset + 1 < data.length by omega)] at h
      cases h

theorem exact_readUint16 :
    Exact readUint16 (fun value => beBytes 2 value.toNat) (fun _ => True) :=
  exact_uint16 fun _ _ _ => rfl

section Parts

variable {uint16 : Reader String UInt16}
  (exactUint16 : Exact uint16 (fun value => beBytes 2 value.toNat) (fun _ => True))

include exactUint16

/-- A string behind its length, with the checks that follow it. -/
theorem exact_string {bytes : Nat → Reader String Bytes}
    (exactBytes : ∀ count, Exact (bytes count) id (fun value => value.length = count))
    (limit : Nat) (hlimit : limit ≤ 2048) (long invalid control : String) :
    Exact (uint16 >>= fun length => require (length.toNat ≤ limit) long >>= fun _ =>
        bytes length.toNat >>= fun value => check (isValidUtf8 value) invalid >>= fun _ =>
        require (!value.any isControlCharacter) control >>= fun _ => Reader.pure value)
      encodeString (fun value => value.length ≤ limit ∧ ValidString value) := by
  have hvalue : ∀ length : UInt16, Exact (ε := String)
      (require (length.toNat ≤ limit) long >>= fun _ =>
        bytes length.toNat >>= fun value =>
        check (isValidUtf8 value) invalid >>= fun _ =>
        require (!value.any isControlCharacter) control >>= fun _ => Reader.pure value)
      id (fun value => (value.length ≤ limit ∧ ValidString value) ∧
        value.length = length.toNat) := by
    intro length
    have hchecks := fun value => ((exact_pure (ε := String) value).required
      (!value.any isControlCharacter) control).guarded invalid (isValidUtf8_spec value)
    have htaken := ((exactBytes length.toNat).bind
      id hchecks (fun value whole h => h.2.2)).required (length.toNat ≤ limit) long
    refine htaken.congr (fun value => ?_) (fun value _ => by simp)
    simp only [id_eq, Bool.not_eq_eq_eq_not, Bool.not_true, List.any_eq_false,
      isControlCharacter, Bool.or_eq_true, decide_eq_true_eq, not_or, UInt8.not_lt, and_true]
    constructor
    · rintro ⟨hshort, hlength, hutf8, hprintable⟩
      exact ⟨⟨hlength ▸ hshort, by omega, hutf8, hprintable⟩, hlength⟩
    · rintro ⟨⟨hshort, _, hutf8, hprintable⟩, hlength⟩
      exact ⟨hlength ▸ hshort, hlength, hutf8, hprintable⟩
  have hread := exactUint16.bind (fun value => UInt16.ofNat value.length) hvalue
    (fun length value h => by rw [h.2, UInt16.ofNat_toNat])
  have hlength : ∀ value : Bytes, value.length ≤ limit →
      (UInt16.ofNat value.length).toNat = value.length := by
    intro value h
    rw [UInt16.toNat_ofNat', Nat.mod_eq_of_lt (by omega)]
  refine hread.congr (fun value => ?_) (fun value h => ?_)
  · constructor
    · exact fun h => h.2.1
    · exact fun h => ⟨trivial, h, (hlength value h.1).symm⟩
  · rw [hlength value h.2.1.1]
    rfl

theorem exact_resolution (error : String) :
    Exact (uint16 >>= fun width => uint16 >>= fun height =>
        require (!(width = 0 || height = 0 || width > MAX_DIMENSION || height > MAX_DIMENSION))
          error >>= fun _ => Reader.pure (⟨width, height⟩ : Resolution))
      encodeResolution ValidResolution := by
  have hbuild : ∀ width height : UInt16, Exact (ε := String)
      (require (!(width = 0 || height = 0 || width > MAX_DIMENSION || height > MAX_DIMENSION))
        error >>= fun _ => Reader.pure (⟨width, height⟩ : Resolution)) (fun _ => [])
      (fun resolution => ValidResolution resolution ∧ resolution = ⟨width, height⟩) := by
    intro width height
    refine ((exact_pure _).required _ _).congr (fun resolution => ?_) (fun _ _ => rfl)
    refine and_congr_left ?_
    rintro rfl
    simp only [MAX_DIMENSION, Bool.not_eq_eq_eq_not, Bool.not_true, Bool.or_eq_false_iff,
      decide_eq_false_iff_not, gt_iff_lt, UInt16.lt_iff_toNat_lt, not_lt, ← UInt16.toNat_inj]
    constructor
    · rintro ⟨⟨⟨h1, h2⟩, h3⟩, h4⟩
      exact ⟨⟨Nat.pos_of_ne_zero h1, h3⟩, ⟨Nat.pos_of_ne_zero h2, h4⟩⟩
    · rintro ⟨⟨h1, h3⟩, ⟨h2, h4⟩⟩
      exact ⟨⟨⟨Nat.pos_iff_ne_zero.mp h1, Nat.pos_iff_ne_zero.mp h2⟩, h3⟩, h4⟩
  have hheight := fun width => exactUint16.bind Resolution.height (hbuild width)
    (fun height resolution h => by rw [h.2])
  have hwidth := exactUint16.bind Resolution.width hheight
    (fun width resolution h => by rw [h.2.2])
  refine hwidth.congr (fun resolution => ?_) (fun resolution _ => ?_)
  · simp
  · simp [encodeResolution]

/-- The counted lists of the format: a bounded count, then the items. -/
theorem exact_counted {α : Type} {item : Reader String α} {encode : α → Bytes}
    {Valid : α → Prop} (exact : Exact item encode Valid) (limit : UInt16)
    (hlimit : limit = 128) (error : String) :
    Exact (uint16 >>= fun count => require (count ≤ limit) error >>= fun _ =>
        replicate item count.toNat)
      (encodeList encode) (ValidList Valid) := by
  have hread := exactUint16.bind (fun items => UInt16.ofNat items.length)
    (fun count => (exact.replicate count.toNat).required (count ≤ limit) error)
    (fun count items h => by rw [h.2.1, UInt16.ofNat_toNat])
  have hlength : ∀ items : List α, items.length ≤ 128 →
      (UInt16.ofNat items.length).toNat = items.length := by
    intro items h
    rw [UInt16.toNat_ofNat', Nat.mod_eq_of_lt (by omega)]
  have hvalid : ∀ items : List α, (True ∧ decide (UInt16.ofNat items.length ≤ limit) = true ∧
      items.length = (UInt16.ofNat items.length).toNat ∧ ∀ item ∈ items, Valid item) ↔
      ValidList Valid items := by
    intro items
    subst hlimit
    rw [decide_eq_true_eq, UInt16.le_iff_toNat_le]
    constructor
    · rintro ⟨_, hshort, hsame, heach⟩
      exact ⟨by rw [hsame]; exact hshort, heach⟩
    · rintro ⟨hshort, heach⟩
      rw [hlength items hshort]
      exact ⟨trivial, hshort, rfl, heach⟩
  refine hread.congr hvalid (fun items h => ?_)
  rw [hlength items ((hvalid items).mp h).short]
  rfl

end Parts

theorem exact_readString : Exact readString encodeString ValidString :=
  (exact_string exact_readUint16
    (fun count => exact_take count "Unexpected end of data while reading string") 2048 (le_refl _)
    "String exceeds protocol limit" "Invalid UTF-8 string"
    "Control character in descriptor string").congr
    (fun _ => and_iff_right_of_imp fun h => h.short) (fun _ _ => rfl)

theorem exact_readResolution : Exact readResolution encodeResolution ValidResolution :=
  exact_resolution exact_readUint16 "Resolution outside allowed range"

theorem exact_readResolutions :
    Exact readResolutions (encodeList encodeResolution) (ValidList ValidResolution) :=
  exact_counted exact_readUint16 exact_readResolution MAX_RESOLUTIONS rfl "Too many resolutions"

theorem exact_readFilter : Exact readFilter encodeFilter ValidFilter := by
  have hcategory := fun name => (exact_byte "Unexpected end of data while reading filter category").bind
    Filter.category
    (fun category => (exact_pure (ε := String) (⟨name, category⟩ : Filter)).required
      (category ≤ 4) "Unknown filter category")
    (fun category filter h => by rw [h.2])
  have hname := exact_readString.bind Filter.name hcategory
    (fun name filter h => by rw [h.2.2])
  refine hname.congr (fun filter => ?_) (fun filter _ => ?_)
  · constructor
    · rintro ⟨hname, _, hcategory, _⟩
      exact ⟨hname, by simpa using hcategory⟩
    · rintro ⟨hname, hcategory⟩
      exact ⟨hname, trivial, by simpa using hcategory, rfl⟩
  · simp [encodeFilter]

theorem exact_readFilters : Exact readFilters (encodeList encodeFilter) (ValidList ValidFilter) :=
  exact_counted exact_readUint16 exact_readFilter MAX_FILTERS rfl "Too many filters"

theorem exact_readDescriptorFields :
    Exact readDescriptorFields encodeDeviceDescriptor ValidDeviceDescriptor := by
  have hfilters := fun name url front back => exact_readFilters.map
    (fun filters => (⟨name, url, front, back, filters⟩ : DeviceDescriptor))
    DeviceDescriptor.filters (fun filters => rfl)
  have hback := fun name url front => exact_readResolutions.bind
    DeviceDescriptor.backResolutions (hfilters name url front)
    (fun back descriptor h => by rw [← h.2])
  have hfront := fun name url => (exact_readResolutions.bind
    DeviceDescriptor.frontResolutions (hback name url)
    (fun front descriptor h => by rw [← h.2.2])).required
    (!(name.isEmpty || url.isEmpty)) "Required descriptor field is empty"
  have hurl := fun name => exact_readString.bind DeviceDescriptor.rtspUrl (hfront name)
    (fun url descriptor h => by rw [← h.2.2.2.2])
  have hname := exact_readString.bind DeviceDescriptor.name hurl
    (fun name descriptor h => by rw [← h.2.2.2.2.2])
  refine hname.congr (fun descriptor => ?_) (fun descriptor _ => ?_)
  · simp only [Bool.not_eq_eq_eq_not, Bool.not_true, Bool.or_eq_false_iff, List.isEmpty_eq_false_iff,
      and_true]
    constructor
    · rintro ⟨hname, hurl, ⟨hname', hurl'⟩, hfront, hback, hfilters⟩
      exact ⟨hname, hname', hurl, hurl', hfront, hback, hfilters⟩
    · rintro ⟨hname, hname', hurl, hurl', hfront, hback, hfilters⟩
      exact ⟨hname, hurl, ⟨hname', hurl'⟩, hfront, hback, hfilters⟩
  · simp [encodeDeviceDescriptor]

end Exactness

theorem parseDeviceDescriptor_ok_iff (data : Bytes) (descriptor : DeviceDescriptor) :
    parseDeviceDescriptor data = .ok descriptor ↔
      data.length ≤ 65536 ∧ ValidDeviceDescriptor descriptor ∧
        data = encodeDeviceDescriptor descriptor := by
  rw [← exact_readDescriptorFields.whole data descriptor]
  unfold parseDeviceDescriptor
  by_cases hsize : data.length > MAX_DESCRIPTOR_SIZE
  · have hlong : ¬ data.length ≤ 65536 := by simpa [MAX_DESCRIPTOR_SIZE] using hsize
    simp [hsize, hlong]
  · have hshort : data.length ≤ 65536 := by simpa [MAX_DESCRIPTOR_SIZE] using hsize
    simp only [hsize, ↓reduceIte, hshort, true_and]
    cases hread : readDescriptorFields data 0 with
    | error fault => simp
    | ok result =>
        obtain ⟨value, offset⟩ := result
        by_cases hoffset : offset = data.length <;> simp [hoffset]

theorem parseDeviceDescriptor_inBounds (data : Bytes) (index : Nat) :
    parseDeviceDescriptor data ≠ .error (.outOfBounds index) := by
  unfold parseDeviceDescriptor
  split
  · simp
  · split
    · next fault hread =>
        intro h
        cases h
        exact exact_readDescriptorFields.inBounds data 0 index (Nat.zero_le _) hread
    · split <;> simp

/-- The parser accepts exactly its grammar: a descriptor comes back if and only
if the buffer is short enough and is precisely the encoding of that valid
descriptor. So re-encoding reproduces the input, two accepted inputs never give
one descriptor, and no byte at or behind the end of the buffer is touched,
whether the input is accepted or refused. -/
theorem parseDeviceDescriptor_exact (data : Bytes) :
    (∀ descriptor, parseDeviceDescriptor data = .ok descriptor ↔
      data.length ≤ 65536 ∧ ValidDeviceDescriptor descriptor ∧
        data = encodeDeviceDescriptor descriptor) ∧
    (∀ descriptor, parseDeviceDescriptor data = .ok descriptor →
      encodeDeviceDescriptor descriptor = data) ∧
    (∀ other descriptor, parseDeviceDescriptor data = .ok descriptor →
      parseDeviceDescriptor other = .ok descriptor → other = data) ∧
    (∀ index, parseDeviceDescriptor data ≠ .error (.outOfBounds index)) := by
  have hencode : ∀ bytes descriptor, parseDeviceDescriptor bytes = .ok descriptor →
      encodeDeviceDescriptor descriptor = bytes := by
    intro bytes descriptor h
    exact ((parseDeviceDescriptor_ok_iff bytes descriptor).mp h).2.2.symm
  refine ⟨parseDeviceDescriptor_ok_iff data, hencode data, ?_, parseDeviceDescriptor_inBounds data⟩
  intro other descriptor hdata hother
  rw [← hencode other descriptor hother, ← hencode data descriptor hdata]

example : parseDeviceDescriptor [0, 1, 110, 0, 1, 117, 0xff, 0xff] =
    .error (.thrown "Too many resolutions") := by decide

end OpenCam.Linux
