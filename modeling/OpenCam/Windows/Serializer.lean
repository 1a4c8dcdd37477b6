import OpenCam.Linux.DeviceDescriptor
import OpenCam.Bytes.Text

/-!
The descriptor decoder of the Windows controller's `serializer.cpp`: the same
format as the Linux controller's, read by a `Reader` class of its own, with
limits of its own and with the filters collected by category.
-/

namespace OpenCam.Windows

open Octets Octets.Reader

def MAX_MESSAGE : Nat := 64 * 1024
def MAX_STRING : Nat := 2048
def MAX_LIST : UInt16 := 128
def MAX_DIMENSION : UInt16 := 8192

/-- `Video::Filter::Category`. -/
inductive Category where
  | none
  | correction
  | effect
  | distortion
  | artistic
deriving DecidableEq, Repr

/-- `static_cast<Video::Filter::Category>(category)`. -/
def Category.ofByte (category : UInt8) : Category :=
  if category = 0 then .none
  else if category = 1 then .correction
  else if category = 2 then .effect
  else if category = 3 then .distortion
  else .artistic

def Category.all : List Category := [.none, .correction, .effect, .distortion, .artistic]

/-- A `std::map` from categories to filter names, in the order of its keys. -/
abbrev Registry := List (Category × List Bytes)

/-- `filters[category].push_back(name)`. -/
def Registry.push (registry : Registry) (category : Category) (name : Bytes) : Registry :=
  Category.all.filterMap fun key =>
    match registry.lookup key with
    | some names => some (key, if key = category then names ++ [name] else names)
    | none => if key = category then some (key, [name]) else none

structure DeviceDescriptor where
  name : Bytes
  url : Bytes
  protocol : Bytes
  frontResolutions : List (Int × Int)
  backResolutions : List (Int × Int)
  filters : Registry
deriving DecidableEq, Repr

/-- `ValidUtf8` is the Linux controller's `isValidUtf8`, statement for statement. -/
def ValidUtf8 (value : Bytes) : Except (Fault String) Bool := Linux.isValidUtf8 value

/-- Both controllers' validators accept exactly the concatenations of encoded scalar
values, and neither reads behind the end of its string. -/
theorem validUtf8_exact (value : Bytes) :
    ∃ linux windows, Linux.isValidUtf8 value = .ok linux ∧ ValidUtf8 value = .ok windows ∧
      (linux = true ↔ WellFormedUtf8 value) ∧ (windows = true ↔ WellFormedUtf8 value) := by
  obtain ⟨valid, hvalid, hiff⟩ := Linux.isValidUtf8_spec value
  exact ⟨valid, valid, hvalid, hvalid, hiff, hiff⟩

section Reader

/-- The message of `IncompleteMessage`, which `Reader::require` throws. -/
def incompleteMessage : String := "Incomplete message"

def u8 : Reader String UInt8 := fun data offset =>
  if 1 > data.length - offset then .error (.thrown incompleteMessage)
  else
    match byteAt data offset with
    | .ok value => .ok (value, offset + 1)
    | .error fault => .error fault

def u16 : Reader String UInt16 := fun data offset =>
  if 2 > data.length - offset then .error (.thrown incompleteMessage)
  else do
    let high ← byteAt data offset
    let low ← byteAt data (offset + 1)
    .ok ((high.toUInt16 <<< 8) ||| low.toUInt16, offset + 2)

/-- `require(length)`, the copy and the advance of `Reader::string`. -/
def copy (length : Nat) : Reader String Bytes := fun data offset =>
  if length > data.length - offset then .error (.thrown incompleteMessage)
  else
    match copyBytes data offset length with
    | .ok bytes => .ok (bytes, offset + length)
    | .error fault => .error fault

def string (limit : Nat) : Reader String Bytes := do
  let length ← u16
  require (length.toNat ≤ limit) "String exceeds protocol limit"
  let value ← copy length.toNat
  check (ValidUtf8 value) "Invalid UTF-8"
  require (!value.any Linux.isControlCharacter) "Control character in string"
  Reader.pure value

end Reader

section Descriptor

def isBase64Url (c : UInt8) : Bool :=
  (65 ≤ c && c ≤ 90) || (97 ≤ c && c ≤ 122) || (48 ≤ c && c ≤ 57) || c = 45 || c = 95

def ValidLoopbackMediaUrl (url : Bytes) : Bool :=
  let start := ascii "rtsp://opencam:"
  if !start.isPrefixOf url then false
  else
    match find (url.drop start.length) 64 with
    | none => false
    | some position =>
        let at_ := start.length + position
        if (find (url.drop (at_ + 1)) 64).isSome then false
        else
          let credential := (url.drop start.length).take (at_ - start.length)
          if credential.length ≠ 43 then false
          else if !credential.all isBase64Url then false
          else
            let endpoint := ascii "127.0.0.1:8554/live/"
            let remainder := url.drop (at_ + 1)
            if !endpoint.isPrefixOf remainder || remainder.length ≠ endpoint.length + 32 then false
            else (remainder.drop endpoint.length).all isLowerHex

/-- The body of either resolution loop. -/
def readResolution : Reader String Linux.Resolution := do
  let width ← u16
  let height ← u16
  require (!(width = 0 || height = 0 || width > MAX_DIMENSION || height > MAX_DIMENSION))
    "Invalid resolution"
  Reader.pure ⟨width, height⟩

def readResolutions : Reader String (List Linux.Resolution) := do
  let count ← u16
  require (count ≤ MAX_LIST) "Too many resolutions"
  replicate readResolution count.toNat

/-- The body of the filter loop, without the insertion. -/
def readFilter : Reader String Linux.Filter := do
  let filterName ← string 128
  let category ← u8
  require (!(category > 4 || filterName.isEmpty)) "Invalid filter"
  Reader.pure ⟨filterName, category⟩

def readFilters : Reader String (List Linux.Filter) := do
  let count ← u16
  require (count ≤ MAX_LIST) "Too many filters"
  replicate readFilter count.toNat

/-- The fields of a descriptor in order, as they are read. -/
def readFields : Reader String Linux.DeviceDescriptor := do
  let name ← string 256
  let url ← string MAX_STRING
  require (!(name.isEmpty || !ValidLoopbackMediaUrl url)) "Invalid legacy ADB descriptor"
  let front ← readResolutions
  let back ← readResolutions
  let filters ← readFilters
  Reader.pure ⟨name, url, front, back, filters⟩

/-- `emplace_back(width, height)`. -/
def resolutionPair (resolution : Linux.Resolution) : Int × Int :=
  (resolution.width.toNat, resolution.height.toNat)

/-- The insertions of the filter loop. -/
def collectFilters (filters : List Linux.Filter) : Registry :=
  filters.foldl (fun registry filter => registry.push (.ofByte filter.category) filter.name) []

def DeserializeDeviceDescriptor (data : Bytes) : Except (Fault String) DeviceDescriptor :=
  if data.length > MAX_MESSAGE then .error (.thrown "Descriptor exceeds limit")
  else
    match readFields data 0 with
    | .error fault => .error fault
    | .ok (fields, offset) =>
        if offset ≠ data.length then .error (.thrown "Trailing protocol bytes")
        else .ok ⟨fields.name, fields.rtspUrl, ascii "tcp",
          fields.frontResolutions.map resolutionPair, fields.backResolutions.map resolutionPair,
          collectFilters fields.filters⟩

end Descriptor

section Exactness

theorem exact_u16 : Exact u16 (fun value => beBytes 2 value.toNat) (fun _ => True) :=
  Linux.exact_uint16 fun data offset hoffset => by
    unfold u16
    have hroom : 2 > data.length - offset ↔ offset + 2 > data.length := by omega
    simp only [hroom]
    rfl

/-- Inside the buffer the two ways of checking the remaining room agree. -/
theorem u8_eq {data : Bytes} {offset : Nat} (hoffset : offset ≤ data.length) :
    u8 data offset = byte incompleteMessage data offset := by
  have hroom : 1 > data.length - offset ↔ offset ≥ data.length := by omega
  unfold u8 byte
  simp only [hroom]
  split
  · rfl
  · cases byteAt data offset <;> rfl

theorem exact_u8 : Exact u8 (fun value => [value]) (fun _ => True) where
  reads := by
    intro data offset value next hoffset
    rw [u8_eq hoffset]
    exact (exact_byte incompleteMessage).reads data offset value next hoffset
  inBounds := by
    intro data offset index hoffset
    rw [u8_eq hoffset]
    exact (exact_byte incompleteMessage).inBounds data offset index hoffset

theorem copy_eq {length : Nat} {data : Bytes} {offset : Nat} (hoffset : offset ≤ data.length) :
    copy length data offset = take length incompleteMessage data offset := by
  have hroom : length > data.length - offset ↔ offset + length > data.length := by omega
  unfold copy take
  simp only [hroom]
  split
  · rfl
  · cases copyBytes data offset length <;> rfl

theorem exact_copy (length : Nat) :
    Exact (copy length) id (fun value => value.length = length) where
  reads := by
    intro data offset value next hoffset
    rw [copy_eq hoffset]
    exact (exact_take length incompleteMessage).reads data offset value next hoffset
  inBounds := by
    intro data offset index hoffset
    rw [copy_eq hoffset]
    exact (exact_take length incompleteMessage).inBounds data offset index hoffset

theorem exact_stringReader {limit : Nat} (hlimit : limit ≤ 2048) :
    Exact (string limit) Linux.encodeString
      (fun value => value.length ≤ limit ∧ Linux.ValidString value) :=
  Linux.exact_string exact_u16 exact_copy limit hlimit "String exceeds protocol limit"
    "Invalid UTF-8" "Control character in string"

theorem exact_readResolution :
    Exact readResolution Linux.encodeResolution Linux.ValidResolution :=
  Linux.exact_resolution exact_u16 "Invalid resolution"

theorem exact_readResolutions : Exact readResolutions
    (Linux.encodeList Linux.encodeResolution) (Linux.ValidList Linux.ValidResolution) :=
  Linux.exact_counted exact_u16 exact_readResolution MAX_LIST rfl "Too many resolutions"

/-- A filter that either controller reads, with the Windows limits on its name. -/
def ValidFilter (filter : Linux.Filter) : Prop :=
  Linux.ValidFilter filter ∧ 1 ≤ filter.name.length ∧ filter.name.length ≤ 128

theorem exact_readFilter : Exact readFilter Linux.encodeFilter ValidFilter := by
  have hcategory := fun name => exact_u8.bind Linux.Filter.category
    (fun category => (exact_pure (ε := String) (⟨name, category⟩ : Linux.Filter)).required
      (!(category > 4 || name.isEmpty)) "Invalid filter")
    (fun category filter h => by rw [h.2])
  have hname := (exact_stringReader (show 128 ≤ 2048 by norm_num)).bind Linux.Filter.name hcategory
    (fun name filter h => by rw [h.2.2])
  refine hname.congr (fun filter => ?_) (fun filter _ => ?_)
  · have hchecks : (!(decide (filter.category > 4) || filter.name.isEmpty)) = true ↔
        filter.category ≤ 4 ∧ 1 ≤ filter.name.length := by
      rw [Bool.not_eq_true', Bool.or_eq_false_iff, decide_eq_false_iff_not, gt_iff_lt,
        UInt8.not_lt, List.isEmpty_eq_false_iff, ← List.length_pos_iff]
      rfl
    rw [hchecks]
    constructor
    · rintro ⟨⟨hlong, hname⟩, _, ⟨hcategory, hshort⟩, _⟩
      exact ⟨⟨hname, hcategory⟩, hshort, hlong⟩
    · rintro ⟨⟨hname, hcategory⟩, hshort, hlong⟩
      exact ⟨⟨hlong, hname⟩, trivial, ⟨hcategory, hshort⟩, rfl⟩
  · simp [Linux.encodeFilter]

theorem exact_readFilters : Exact readFilters (Linux.encodeList Linux.encodeFilter)
    (Linux.ValidList ValidFilter) :=
  Linux.exact_counted exact_u16 exact_readFilter MAX_LIST rfl "Too many filters"

/-- What the Windows controller asks of a descriptor beyond the common format. -/
structure WindowsLimits (descriptor : Linux.DeviceDescriptor) : Prop where
  name : descriptor.name.length ≤ 256
  url : ValidLoopbackMediaUrl descriptor.rtspUrl = true
  filters : ∀ filter ∈ descriptor.filters, 1 ≤ filter.name.length ∧ filter.name.length ≤ 128

theorem exact_readFields : Exact readFields Linux.encodeDeviceDescriptor
    (fun descriptor => Linux.ValidDeviceDescriptor descriptor ∧ WindowsLimits descriptor) := by
  have hfilters := fun name url front back => exact_readFilters.map
    (fun filters => (⟨name, url, front, back, filters⟩ : Linux.DeviceDescriptor))
    Linux.DeviceDescriptor.filters (fun filters => rfl)
  have hback := fun name url front => exact_readResolutions.bind
    Linux.DeviceDescriptor.backResolutions (hfilters name url front)
    (fun back descriptor h => by rw [← h.2])
  have hfront := fun name url => (exact_readResolutions.bind
    Linux.DeviceDescriptor.frontResolutions (hback name url)
    (fun front descriptor h => by rw [← h.2.2])).required
    (!(name.isEmpty || !ValidLoopbackMediaUrl url)) "Invalid legacy ADB descriptor"
  have hurl := fun name => (exact_stringReader (le_refl MAX_STRING)).bind
    Linux.DeviceDescriptor.rtspUrl (hfront name)
    (fun url descriptor h => by rw [← h.2.2.2.2])
  have hname := (exact_stringReader (show 256 ≤ 2048 by norm_num)).bind
    Linux.DeviceDescriptor.name hurl (fun name descriptor h => by rw [← h.2.2.2.2.2])
  refine hname.congr (fun descriptor => ?_) (fun descriptor _ => ?_)
  · have hempty : ValidLoopbackMediaUrl [] = false := by decide
    simp only [Bool.not_eq_eq_eq_not, Bool.not_true, Bool.or_eq_false_iff,
      List.isEmpty_eq_false_iff, and_true]
    constructor
    · rintro ⟨⟨hlong, hname⟩, ⟨_, hurl⟩, ⟨hname', hloopback⟩, hfront, hback, hfilters⟩
      have hurl' : descriptor.rtspUrl ≠ [] := by
        intro h
        rw [h, hempty] at hloopback
        cases hloopback
      exact ⟨⟨hname, hname', hurl, hurl', hfront, hback,
        ⟨hfilters.short, fun filter hmem => (hfilters.each filter hmem).1⟩⟩,
        ⟨hlong, hloopback, fun filter hmem => (hfilters.each filter hmem).2⟩⟩
    · rintro ⟨⟨hname, hname', hurl, hurl', hfront, hback, hfilters⟩, hlong, hloopback, hnames⟩
      exact ⟨⟨hlong, hname⟩, ⟨hurl.short, hurl⟩, ⟨hname', hloopback⟩, hfront, hback,
        ⟨hfilters.short, fun filter hmem => ⟨hfilters.each filter hmem, hnames filter hmem⟩⟩⟩
  · simp [Linux.encodeDeviceDescriptor]

end Exactness

section Grouping

/-- The names of one category, in the order of the list. -/
def namesOf (filters : List Linux.Filter) (category : Category) : List Bytes :=
  (filters.filter fun filter => Category.ofByte filter.category = category).map Linux.Filter.name

/-- The filters grouped by category, each group in the order of the list. -/
def groupByCategory (filters : List Linux.Filter) : Registry :=
  Category.all.filterMap fun category =>
    if namesOf filters category = [] then none else some (category, namesOf filters category)

theorem lookup_filterMap (value : Category → Option (List Bytes)) (keys : List Category)
    (key : Category) :
    (keys.filterMap fun key => (value key).map (Prod.mk key)).lookup key =
      if key ∈ keys then value key else none := by
  induction keys with
  | nil => rfl
  | cons head rest ih =>
      by_cases hkey : key = head
      · subst hkey
        cases hvalue : value key with
        | none => simp [hvalue, ih]
        | some names => simp [hvalue]
      · have hne : (key == head) = false := by simpa using hkey
        cases hvalue : value head with
        | none => simp [hvalue, ih, hkey]
        | some names => simp [hvalue, ih, hkey, List.lookup_cons, hne]

theorem lookup_groupByCategory (filters : List Linux.Filter) (key : Category) :
    (groupByCategory filters).lookup key =
      if namesOf filters key = [] then none else some (namesOf filters key) := by
  have hkey : key ∈ Category.all := by cases key <;> decide
  have hlookup := lookup_filterMap (fun category =>
    if namesOf filters category = [] then none else some (namesOf filters category)) Category.all key
  rw [if_pos hkey] at hlookup
  rw [← hlookup, groupByCategory]
  congr 1
  refine List.filterMap_congr fun category _ => ?_
  split <;> rfl

theorem groupByCategory_concat (filters : List Linux.Filter) (filter : Linux.Filter) :
    (groupByCategory filters).push (.ofByte filter.category) filter.name =
      groupByCategory (filters ++ [filter]) := by
  unfold Registry.push
  conv_rhs => rw [groupByCategory]
  refine List.filterMap_congr fun key _ => ?_
  rw [lookup_groupByCategory]
  have hnames : namesOf (filters ++ [filter]) key =
      namesOf filters key ++ if key = Category.ofByte filter.category then [filter.name] else [] := by
    by_cases h : key = Category.ofByte filter.category
    · simp [namesOf, List.filter_append, h]
    · have h' : ¬ Category.ofByte filter.category = key := fun hsame => h hsame.symm
      simp [namesOf, List.filter_append, h, h']
  rw [hnames]
  by_cases hempty : namesOf filters key = []
  · rw [if_pos hempty, hempty]
    by_cases hkey : key = Category.ofByte filter.category <;> simp [hkey]
  · rw [if_neg hempty]
    by_cases hkey : key = Category.ofByte filter.category
    · simp only [if_pos hkey]
      simp
    · simp only [if_neg hkey]
      simp [hempty]

theorem collectFilters_eq (filters : List Linux.Filter) :
    collectFilters filters = groupByCategory filters := by
  induction filters using List.reverseRecOn with
  | nil => rfl
  | append_singleton filters filter ih =>
      rw [← groupByCategory_concat, ← ih, collectFilters, List.foldl_append]
      rfl

end Grouping

theorem DeserializeDeviceDescriptor_ok_iff (data : Bytes) (descriptor : DeviceDescriptor) :
    DeserializeDeviceDescriptor data = .ok descriptor ↔
      ∃ fields, Linux.parseDeviceDescriptor data = .ok fields ∧ WindowsLimits fields ∧
        descriptor = ⟨fields.name, fields.rtspUrl, ascii "tcp",
          fields.frontResolutions.map resolutionPair, fields.backResolutions.map resolutionPair,
          collectFilters fields.filters⟩ := by
  have hfields := fun fields => exact_readFields.whole data fields
  unfold DeserializeDeviceDescriptor
  by_cases hsize : data.length > MAX_MESSAGE
  · have hlong : ¬ data.length ≤ 65536 := by simpa [MAX_MESSAGE] using hsize
    simp only [hsize, ↓reduceIte, reduceCtorEq, false_iff, not_exists]
    rintro fields ⟨hparse, -⟩
    exact hlong ((Linux.parseDeviceDescriptor_ok_iff data fields).mp hparse).1
  · have hshort : data.length ≤ 65536 := by simpa [MAX_MESSAGE] using hsize
    rw [if_neg hsize]
    have hcommon : ∀ fields, Linux.parseDeviceDescriptor data = .ok fields ∧ WindowsLimits fields ↔
        readFields data 0 = .ok (fields, data.length) := by
      intro fields
      rw [hfields, Linux.parseDeviceDescriptor_ok_iff]
      constructor
      · rintro ⟨⟨-, hvalid, hdata⟩, hlimits⟩
        exact ⟨⟨hvalid, hlimits⟩, hdata⟩
      · rintro ⟨⟨hvalid, hlimits⟩, hdata⟩
        exact ⟨⟨hshort, hvalid, hdata⟩, hlimits⟩
    simp only [← and_assoc, hcommon]
    cases hread : readFields data 0 with
    | error fault => simp
    | ok result =>
        obtain ⟨value, offset⟩ := result
        by_cases hoffset : offset = data.length
        · simp only [hoffset, ne_eq, not_true_eq_false, ↓reduceIte, Except.ok.injEq, Prod.mk.injEq,
            and_true]
          constructor
          · rintro rfl
            exact ⟨value, rfl, rfl⟩
          · rintro ⟨fields, rfl, rfl⟩
            rfl
        · simp [hoffset]

/-- The Windows controller accepts a byte string exactly when the Linux
controller does and the descriptor keeps the Windows limits; then both yield
the same fields, with the filters grouped by category. -/
theorem DeserializeDeviceDescriptor_agrees (data : Bytes) :
    ((∃ descriptor, DeserializeDeviceDescriptor data = .ok descriptor) ↔
      ∃ fields, Linux.parseDeviceDescriptor data = .ok fields ∧ WindowsLimits fields) ∧
    (∀ descriptor fields, DeserializeDeviceDescriptor data = .ok descriptor →
      Linux.parseDeviceDescriptor data = .ok fields →
      descriptor.name = fields.name ∧ descriptor.url = fields.rtspUrl ∧
      descriptor.frontResolutions = fields.frontResolutions.map resolutionPair ∧
      descriptor.backResolutions = fields.backResolutions.map resolutionPair ∧
      descriptor.filters = groupByCategory fields.filters) := by
  constructor
  · constructor
    · rintro ⟨descriptor, hok⟩
      obtain ⟨fields, hparse, hlimits, -⟩ := (DeserializeDeviceDescriptor_ok_iff _ _).mp hok
      exact ⟨fields, hparse, hlimits⟩
    · rintro ⟨fields, hparse, hlimits⟩
      exact ⟨_, (DeserializeDeviceDescriptor_ok_iff _ _).mpr ⟨fields, hparse, hlimits, rfl⟩⟩
  · intro descriptor fields hok hparse
    obtain ⟨fields', hparse', -, rfl⟩ := (DeserializeDeviceDescriptor_ok_iff _ _).mp hok
    obtain rfl : fields' = fields := Except.ok.inj (hparse'.symm.trans hparse)
    exact ⟨rfl, rfl, rfl, rfl, collectFilters_eq fields'.filters⟩

end OpenCam.Windows
