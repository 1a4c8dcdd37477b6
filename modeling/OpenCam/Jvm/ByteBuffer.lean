import OpenCam.Bytes.Reader

/-!
`java.nio.ByteBuffer` in big-endian order. As a writer it is an array of fixed
capacity, filled from a position; `Appends` says that an operation writes
given bytes at the position and nothing else, and it composes, so what a
serializer leaves in a buffer is read off its code. A wrapped array is read
by a `Reader`, whose offset is the position.
-/

namespace Jvm

open Octets

/-- The exceptions of buffers and of `require`. -/
inductive Throwable where
  | illegalArgument (message : String)
  | bufferOverflow
  | bufferUnderflow
  | characterCoding
deriving DecidableEq, Repr

/-- `require(condition) { message }`. -/
def require (condition : Bool) (message : String) : Except Throwable Unit :=
  if condition then .ok () else .error (.illegalArgument message)

/-- `require(condition)`. -/
def require' (condition : Bool) : Except Throwable Unit := require condition "Failed requirement."

theorem require'_ok {condition : Bool} : require' condition = .ok () ↔ condition = true := by
  cases condition <;> simp [require', require]

theorem require_bind_ok {α : Type} {condition : Bool} {message : String}
    {next : Unit → Except Throwable α} {result : α} :
    (require condition message >>= next) = .ok result ↔ condition = true ∧ next () = .ok result := by
  cases condition <;> simp [require, bind, Except.bind]

/-- A statement for its effect, then the rest. -/
theorem ok_bind {α β : Type} (value : α) (next : α → Except Throwable β) :
    (Except.ok value >>= next) = next value := rfl

theorem unit_bind_ok {α : Type} {first : Except Throwable Unit}
    {next : Unit → Except Throwable α} {result : α} :
    (first >>= next) = .ok result ↔ first = .ok () ∧ next () = .ok result := by
  cases first <;> simp [bind, Except.bind]

structure ByteBuffer where
  array : Bytes
  position : Nat
deriving DecidableEq, Repr

namespace ByteBuffer

def allocate (capacity : Nat) : ByteBuffer := ⟨List.replicate capacity 0, 0⟩

/-- `put(source)`, which refuses what does not fit. -/
def put (buffer : ByteBuffer) (source : Bytes) : Except Throwable ByteBuffer :=
  if source.length > buffer.array.length - buffer.position then .error .bufferOverflow
  else .ok ⟨buffer.array.take buffer.position ++ source ++
      buffer.array.drop (buffer.position + source.length), buffer.position + source.length⟩

/-- `put(value.toByte())`. -/
def putByte (buffer : ByteBuffer) (value : Int) : Except Throwable ByteBuffer :=
  buffer.put (beBytes 1 (value % 2 ^ 8).toNat)

/-- `putShort(value.toShort())`. -/
def putShort (buffer : ByteBuffer) (value : Int) : Except Throwable ByteBuffer :=
  buffer.put (beBytes 2 (value % 2 ^ 16).toNat)

/-- `items.forEach { write }`. -/
def forEach {α : Type} (items : List α) (write : ByteBuffer → α → Except Throwable ByteBuffer)
    (buffer : ByteBuffer) : Except Throwable ByteBuffer :=
  items.foldlM write buffer

/-- A buffer whose first bytes are written and whose rest is still zero. -/
structure Holds (buffer : ByteBuffer) (capacity : Nat) (content : Bytes) : Prop where
  fits : content.length ≤ capacity
  array : buffer.array = content ++ List.replicate (capacity - content.length) 0
  position : buffer.position = content.length

theorem allocate_holds (capacity : Nat) : (allocate capacity).Holds capacity [] :=
  ⟨Nat.zero_le _, rfl, rfl⟩

/-- A full buffer is its content. -/
theorem Holds.array_eq {buffer : ByteBuffer} {content : Bytes}
    (h : buffer.Holds content.length content) : buffer.array = content := by
  rw [h.array, Nat.sub_self]
  exact List.append_nil content

/-- The operation writes exactly `bytes`, wherever there is room for them. -/
def Appends (write : ByteBuffer → Except Throwable ByteBuffer) (bytes : Bytes) : Prop :=
  ∀ buffer capacity content, buffer.Holds capacity content →
    content.length + bytes.length ≤ capacity →
    ∃ after, write buffer = .ok after ∧ after.Holds capacity (content ++ bytes)

theorem appends_put (source : Bytes) : Appends (fun buffer => buffer.put source) source := by
  intro buffer capacity content hholds hroom
  have hlength : buffer.array.length = capacity := by
    rw [hholds.array, List.length_append, List.length_replicate]
    have := hholds.fits
    omega
  refine ⟨_, if_neg ?_, ?_, ?_, ?_⟩
  · rw [hlength, hholds.position]
    omega
  · rwa [List.length_append]
  · have hrest : capacity - content.length - (content.length + source.length - content.length) =
        capacity - (content ++ source).length := by
      rw [List.length_append]
      omega
    rw [hholds.position, hholds.array, List.take_left, List.drop_append,
      List.drop_eq_nil_of_le (Nat.le_add_right _ _), List.nil_append, List.drop_replicate, hrest]
  · rw [hholds.position, List.length_append]

theorem Appends.andThen {first second : ByteBuffer → Except Throwable ByteBuffer}
    {front back : Bytes} (hfirst : Appends first front) (hsecond : Appends second back) :
    Appends (fun buffer => first buffer >>= second) (front ++ back) := by
  intro buffer capacity content hholds hroom
  rw [List.length_append] at hroom
  obtain ⟨middle, hmiddle, hholds'⟩ := hfirst buffer capacity content hholds (by omega)
  obtain ⟨after, hafter, hholds''⟩ := hsecond middle capacity (content ++ front) hholds'
    (by rw [List.length_append]; omega)
  refine ⟨after, ?_, by rwa [← List.append_assoc]⟩
  dsimp only
  rw [hmiddle]
  exact hafter

theorem appends_forEach {α : Type} (items : List α)
    {write : ByteBuffer → α → Except Throwable ByteBuffer} {encode : α → Bytes}
    (hwrite : ∀ item ∈ items, Appends (fun buffer => write buffer item) (encode item)) :
    Appends (forEach items write) (items.flatMap encode) := by
  induction items with
  | nil =>
      intro buffer capacity content hholds _
      exact ⟨buffer, rfl, by simpa using hholds⟩
  | cons item rest ih =>
      have hrest := ih fun other hmem => hwrite other (List.mem_cons_of_mem item hmem)
      exact (hwrite item (List.mem_cons_self ..)).andThen hrest

theorem appends_putByte (value : Int) :
    Appends (fun buffer => buffer.putByte value) (beBytes 1 (value % 2 ^ 8).toNat) :=
  appends_put _

theorem appends_putShort (value : Int) :
    Appends (fun buffer => buffer.putShort value) (beBytes 2 (value % 2 ^ 16).toNat) :=
  appends_put _

/-- Writing a buffer of exactly the needed capacity fills it. -/
theorem Appends.fills {write : ByteBuffer → Except Throwable ByteBuffer} {bytes : Bytes}
    (happends : Appends write bytes) :
    write (allocate bytes.length) = .ok ⟨bytes, bytes.length⟩ := by
  obtain ⟨after, hafter, hholds⟩ :=
    happends _ _ _ (allocate_holds bytes.length) (by simp)
  rw [List.nil_append] at hholds
  rw [hafter]
  obtain ⟨array, position⟩ := after
  congr 1
  exact ByteBuffer.mk.injEq .. ▸ ⟨hholds.array_eq, hholds.position⟩

end ByteBuffer

section Wrapped

open Octets.Reader

/-- The `Int` of 32 bits. -/
def toInt32 (bits : Nat) : Int := (bits : Int).bmod (2 ^ 32)

/-- The bytes of an `Int`. -/
def int32Bytes (value : Int) : Bytes := beBytes 4 (value % 2 ^ 32).toNat

theorem toInt32_bytes {value : Int} (hlow : -2 ^ 31 ≤ value) (hhigh : value < 2 ^ 31) :
    toInt32 (beNat (int32Bytes value)) = value := by
  have hbits : (value % 2 ^ 32).toNat < 256 ^ 4 := by omega
  have hnat : ((value % 2 ^ 32).toNat : Int) = value % 2 ^ 32 := by omega
  unfold int32Bytes toInt32
  rw [beNat_beBytes hbits, hnat]
  exact (Int.emod_bmod value (2 ^ 32)).trans (Int.bmod_eq_of_le (by omega) (by omega))

/-- `require(buffer.remaining() >= count) { message }`. -/
def requireRemaining (count : Nat) (message : String) : Reader Throwable Unit :=
  fun data offset =>
    if data.length - offset ≥ count then .ok ((), offset)
    else .error (.thrown (.illegalArgument message))

/-- `require(buffer.remaining() == 0) { message }`. -/
def requireFinished (message : String) : Reader Throwable Unit := fun data offset =>
  if data.length - offset = 0 then .ok ((), offset)
  else .error (.thrown (.illegalArgument message))

/-- `require(condition) { message }` between reads. -/
def requireThat (condition : Bool) (message : String) : Reader Throwable Unit :=
  Reader.require condition (.illegalArgument message)

/-- `buffer.get(bytes)` for a new array. -/
def getBytes (count : Nat) : Reader Throwable Bytes := Reader.take count .bufferUnderflow

/-- `buffer.int`. -/
def getInt : Reader Throwable Int := do
  let bytes ← getBytes 4
  Reader.pure (toInt32 (beNat bytes))

/-- `buffer.short.toInt() and 0xffff`. -/
def getUnsignedShort : Reader Throwable Nat := do
  let bytes ← getBytes 2
  Reader.pure (beNat bytes)

/-- `buffer.get().toInt() and 0xff`. -/
def getUnsignedByte : Reader Throwable Nat := do
  let bytes ← getBytes 1
  Reader.pure (beNat bytes)

theorem reads_requireRemaining {count : Nat} {rest : Bytes} (h : count ≤ rest.length)
    (message : String) : Reads (requireRemaining count message) [] () rest := by
  intro front
  have hroom : (front ++ ([] ++ rest)).length - front.length ≥ count := by
    rw [List.nil_append, List.length_append]
    omega
  exact if_pos hroom

theorem reads_requireFinished (message : String) :
    Reads (requireFinished message) [] () [] := by
  intro front
  exact if_pos (by simp)

theorem reads_requireThat {condition : Bool} (h : condition = true) (message : String)
    (rest : Bytes) : Reads (requireThat condition message) [] () rest :=
  reads_require h _ rest

theorem reads_getBytes (bytes rest : Bytes) : Reads (getBytes bytes.length) bytes bytes rest := by
  intro front
  have hroom : front.length + bytes.length ≤ (front ++ (bytes ++ rest)).length := by
    simp only [List.length_append]
    omega
  unfold getBytes Reader.take copyBytes
  rw [if_neg (by omega), if_pos hroom, List.drop_left, List.take_left]

/-- A fixed number of bytes, decoded. -/
theorem reads_decoded {α : Type} {count : Nat} {bytes : Bytes} (hlength : bytes.length = count)
    (decode : Bytes → α) {value : α} (hvalue : decode bytes = value) (rest : Bytes) :
    Reads (getBytes count >>= fun bytes => Reader.pure (decode bytes)) bytes value rest := by
  subst hlength hvalue
  have hread : Reads (getBytes bytes.length >>= fun bytes => Reader.pure (decode bytes))
      (bytes ++ []) (decode bytes) rest :=
    (reads_getBytes bytes ([] ++ rest)).bind (reads_pure (decode bytes) rest)
  rwa [List.append_nil] at hread

theorem reads_getInt {value : Int} (hlow : -2 ^ 31 ≤ value) (hhigh : value < 2 ^ 31)
    (rest : Bytes) : Reads getInt (int32Bytes value) value rest :=
  reads_decoded (beBytes_length 4 _) (fun bytes => toInt32 (beNat bytes))
    (toInt32_bytes hlow hhigh) rest

theorem reads_getUnsignedShort {value : Nat} (hvalue : value < 65536) (rest : Bytes) :
    Reads getUnsignedShort (beBytes 2 value) value rest :=
  reads_decoded (beBytes_length 2 _) beNat (beNat_beBytes hvalue) rest

theorem reads_getUnsignedByte {value : Nat} (hvalue : value < 256) (rest : Bytes) :
    Reads getUnsignedByte (beBytes 1 value) value rest :=
  reads_decoded (beBytes_length 1 _) beNat (beNat_beBytes hvalue) rest

theorem int32_range (bits : Nat) : -2 ^ 31 ≤ toInt32 bits ∧ toInt32 bits < 2 ^ 31 := by
  unfold toInt32
  have hlow := Int.le_bmod (x := (bits : Int)) (m := 2 ^ 32) (by decide)
  have hhigh := Int.bmod_lt (x := (bits : Int)) (m := 2 ^ 32) (by decide)
  omega

theorem bytes_toInt32 {bytes : Bytes} (hlength : bytes.length = 4) :
    int32Bytes (toInt32 (beNat bytes)) = bytes := by
  have hlt := beNat_lt bytes
  rw [hlength] at hlt
  have hbits : (toInt32 (beNat bytes) % 2 ^ 32).toNat = beNat bytes := by
    unfold toInt32
    rw [show (2 ^ 32 : Int) = ((2 ^ 32 : Nat) : Int) from rfl, Int.bmod_emod]
    omega
  rw [int32Bytes, hbits, ← hlength, beBytes_beNat]

theorem consumes_requireRemaining (count : Nat) (message : String) :
    Consumes (requireRemaining count message) (fun _ bytes _ => bytes = []) := by
  intro data offset value stop _ h
  unfold requireRemaining at h
  split at h
  · cases h
    exact ⟨[], data.drop offset, rfl, rfl, rfl⟩
  · cases h

/-- A reader that ends by refusing what is left over. -/
theorem consumes_finished {α : Type} {Layout : α → Bytes → Bytes → Prop} {value : α}
    (h : Layout value [] []) (message : String) :
    Consumes (requireFinished message >>= fun _ => Reader.pure value) Layout := by
  intro data offset result stop _ hread
  change Reader.bind (requireFinished message) _ data offset = _ at hread
  unfold Reader.bind requireFinished at hread
  split_ifs at hread with hdone
  cases hread
  have hdrop : data.drop offset = [] := List.drop_eq_nil_of_le (by omega)
  exact ⟨[], [], hdrop, rfl, h⟩

theorem consumes_requireThat (condition : Bool) (message : String) :
    Consumes (requireThat condition message) (fun _ bytes _ => bytes = [] ∧ condition = true) :=
  consumes_require condition _

theorem consumes_getBytes (count : Nat) :
    Consumes (getBytes count) (fun value bytes _ => bytes = value ∧ value.length = count) :=
  consumes_take count _

theorem consumes_getInt : Consumes getInt (fun value bytes _ =>
    bytes = int32Bytes value ∧ -2 ^ 31 ≤ value ∧ value < 2 ^ 31) := by
  apply (consumes_getBytes 4).bind
  rintro _ bytes _ ⟨rfl, hlength⟩
  apply consumes_pure
  intro _
  rw [List.append_nil, bytes_toInt32 hlength]
  exact ⟨rfl, int32_range _⟩

/-- A fixed number of bytes as a number. -/
theorem consumes_unsigned (count : Nat) :
    Consumes (getBytes count >>= fun bytes => Reader.pure (beNat bytes))
      (fun value bytes _ => bytes = beBytes count value ∧ value < 256 ^ count) := by
  apply (consumes_getBytes count).bind
  rintro _ bytes _ ⟨rfl, rfl⟩
  apply consumes_pure
  intro _
  rw [List.append_nil, beBytes_beNat]
  exact ⟨rfl, beNat_lt bytes⟩

end Wrapped

end Jvm
