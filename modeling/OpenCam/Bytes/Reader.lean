import OpenCam.Bytes.BigEndian

/-!
Readers that walk a byte buffer with a moving offset, as hand-written decoders
do. Every access names the index it touches, so a read outside the buffer is a
value of the model (`Fault.outOfBounds`) and its absence is a theorem.

`Exact` says that a reader accepts precisely the encodings of the valid values
and consumes nothing else. It composes: each rule below builds the exactness
of a reader from that of its parts, so a decoder's grammar is read off its
code.
-/

namespace Octets

variable {ε α β γ : Type}

/-- Why a reader stopped: the error it raised, or an access past the buffer. -/
inductive Fault (ε : Type) where
  | thrown (error : ε)
  | outOfBounds (index : Nat)
deriving DecidableEq, Repr

/-- A decoder over a fixed buffer and a moving offset. -/
def Reader (ε α : Type) := Bytes → Nat → Except (Fault ε) (α × Nat)

namespace Reader

def pure (value : α) : Reader ε α := fun _ offset => .ok (value, offset)

def bind (first : Reader ε α) (next : α → Reader ε β) : Reader ε β :=
  fun data offset =>
    match first data offset with
    | .ok (value, offset') => next value data offset'
    | .error fault => .error fault

instance : Monad (Reader ε) where
  pure := Reader.pure
  bind := Reader.bind

def throw (error : ε) : Reader ε α := fun _ _ => .error (.thrown error)

/-- `data[index]`. -/
def byteAt (data : Bytes) (index : Nat) : Except (Fault ε) UInt8 :=
  match data[index]? with
  | some byte => .ok byte
  | none => .error (.outOfBounds index)

/-- The copy of `count` bytes from `start`, as a range constructor makes it. -/
def copyBytes (data : Bytes) (start count : Nat) : Except (Fault ε) Bytes :=
  if start + count ≤ data.length then .ok ((data.drop start).take count)
  else .error (.outOfBounds (max start data.length))

/-- Check that `count` bytes remain, copy them and advance the offset. -/
def take (count : Nat) (short : ε) : Reader ε Bytes := fun data offset =>
  if offset + count > data.length then .error (.thrown short)
  else
    match copyBytes data offset count with
    | .ok bytes => .ok (bytes, offset + count)
    | .error fault => .error fault

/-- `for (i = 0; i < count; ++i) items.push_back(item());` -/
def replicate (item : Reader ε α) : Nat → Reader ε (List α)
  | 0 => Reader.pure []
  | count + 1 => Reader.bind item fun value =>
      Reader.bind (replicate item count) fun rest => Reader.pure (value :: rest)

/-- Check that one byte remains, read it and advance the offset. -/
def byte (short : ε) : Reader ε UInt8 := fun data offset =>
  if offset ≥ data.length then .error (.thrown short)
  else
    match byteAt data offset with
    | .ok value => .ok (value, offset + 1)
    | .error fault => .error fault

/-- Raise `error` unless the condition, which may itself fault, holds. -/
def check (condition : Except (Fault ε) Bool) (error : ε) : Reader ε Unit :=
  match condition with
  | .ok true => Reader.pure ()
  | .ok false => throw error
  | .error fault => fun _ _ => .error fault

def require (condition : Bool) (error : ε) : Reader ε Unit :=
  check (.ok condition) error

/-- `reader` succeeds at an offset exactly when the buffer continues there with
the encoding of a valid value, which it returns with the offset behind it; and
it never touches the buffer out of bounds. -/
structure Exact (reader : Reader ε α) (encode : α → Bytes) (Valid : α → Prop) : Prop where
  reads : ∀ data offset value next, offset ≤ data.length →
    (reader data offset = .ok (value, next) ↔
      Valid value ∧ next = offset + (encode value).length ∧ encode value <+: data.drop offset)
  inBounds : ∀ data offset index, offset ≤ data.length →
    reader data offset ≠ .error (.outOfBounds index)

section Rules

variable {reader : Reader ε α} {encode : α → Bytes} {Valid : α → Prop}

/-- An exact reader stops inside the buffer. -/
theorem Exact.next_le (exact : Exact reader encode Valid) {data : Bytes} {offset next : Nat}
    {value : α} (hoffset : offset ≤ data.length)
    (hread : reader data offset = .ok (value, next)) : next ≤ data.length := by
  obtain ⟨_, hnext, hstart⟩ := (exact.reads data offset value next hoffset).mp hread
  have hlength := hstart.length_le
  rw [List.length_drop] at hlength
  omega

/-- The same reader under another description of its grammar. -/
theorem Exact.congr {encode' : α → Bytes} {Valid' : α → Prop}
    (exact : Exact reader encode Valid) (hvalid : ∀ value, Valid value ↔ Valid' value)
    (hencode : ∀ value, Valid value → encode value = encode' value) :
    Exact reader encode' Valid' where
  reads := by
    intro data offset value next hoffset
    rw [exact.reads data offset value next hoffset, ← hvalid value]
    refine and_congr_right fun hv => ?_
    rw [hencode value hv]
  inBounds := exact.inBounds

theorem exact_pure (result : α) :
    Exact (ε := ε) (Reader.pure result) (fun _ => []) (fun value => value = result) where
  reads := by
    intro data offset value next _
    simp only [Reader.pure, Except.ok.injEq, Prod.mk.injEq, List.length_nil, Nat.add_zero,
      List.nil_prefix, and_true]
    exact and_congr eq_comm eq_comm
  inBounds := by
    intro data offset index _ h
    cases h

theorem exact_throw (error : ε) (encode : α → Bytes) :
    Exact (throw error) encode (fun _ => False) where
  reads := by
    intro data offset value next _
    simp [throw]
  inBounds := by
    intro data offset index _
    simp [throw]

/-- A reader that continues depending on a part it has read is exact when the
whole value determines that part. -/
theorem Exact.bind (part : β → α) {next : α → Reader ε β}
    {encodeNext : α → β → Bytes} {ValidNext : α → β → Prop}
    (first : Exact reader encode Valid)
    (second : ∀ value, Exact (next value) (encodeNext value) (ValidNext value))
    (hpart : ∀ value whole, ValidNext value whole → part whole = value) :
    Exact (reader >>= next)
      (fun whole => encode (part whole) ++ encodeNext (part whole) whole)
      (fun whole => Valid (part whole) ∧ ValidNext (part whole) whole) where
  reads := by
    intro data offset whole stop hoffset
    change Reader.bind reader next data offset = _ ↔ _
    unfold Reader.bind
    constructor
    · intro h
      split at h
      · next value middle hfirst =>
          have hmiddle := first.next_le hoffset hfirst
          obtain ⟨hvalid, rfl, hstart⟩ := (first.reads _ _ _ _ hoffset).mp hfirst
          obtain ⟨hvalidNext, rfl, hstartNext⟩ :=
            ((second value).reads _ _ _ _ hmiddle).mp h
          obtain rfl := hpart value whole hvalidNext
          refine ⟨⟨hvalid, hvalidNext⟩, by simp [Nat.add_assoc], ?_⟩
          obtain ⟨rest, hrest⟩ := hstart
          rw [← List.drop_drop, ← hrest, List.drop_left] at hstartNext
          rw [← hrest]
          exact (List.prefix_append_right_inj _).mpr hstartNext
      · cases h
    · rintro ⟨⟨hvalid, hvalidNext⟩, hstop, hstart⟩
      obtain ⟨rest, hrest⟩ := hstart
      rw [List.append_assoc] at hrest
      have hfirst := (first.reads data offset (part whole) _ hoffset).mpr
        ⟨hvalid, rfl, ⟨_, hrest⟩⟩
      have hmiddle := first.next_le hoffset hfirst
      rw [hfirst]
      refine ((second (part whole)).reads _ _ _ _ hmiddle).mpr ⟨hvalidNext, ?_, ?_⟩
      · rw [hstop, List.length_append, Nat.add_assoc]
      · rw [← List.drop_drop, ← hrest, List.drop_left]
        exact List.prefix_append _ _
  inBounds := by
    intro data offset index hoffset h
    change Reader.bind reader next data offset = _ at h
    unfold Reader.bind at h
    split at h
    · next value middle hfirst =>
        exact (second value).inBounds _ _ index (first.next_le hoffset hfirst) h
    · next fault hfirst =>
        cases h
        exact first.inBounds _ _ index hoffset hfirst

/-- The result of a reader, repackaged by an injective constructor. -/
theorem Exact.map (exact : Exact reader encode Valid) (make : α → β) (part : β → α)
    (hpart : ∀ value, part (make value) = value) :
    Exact (reader >>= fun value => Reader.pure (make value))
      (fun whole => encode (part whole))
      (fun whole => Valid (part whole) ∧ make (part whole) = whole) := by
  have hbind := exact.bind part (fun value => exact_pure (ε := ε) (make value))
    (fun value whole hwhole => by rw [hwhole, hpart])
  refine hbind.congr (fun whole => and_congr_right fun _ => eq_comm) ?_
  intro whole _
  simp

/-- A reader behind a check whose condition never faults. -/
theorem Exact.guarded {condition : Except (Fault ε) Bool} {Holds : Prop}
    (exact : Exact reader encode Valid) (error : ε)
    (hcondition : ∃ holds, condition = .ok holds ∧ (holds = true ↔ Holds)) :
    Exact (check condition error >>= fun _ => reader) encode
      (fun value => Holds ∧ Valid value) := by
  obtain ⟨holds, rfl, hiff⟩ := hcondition
  cases holds with
  | true => exact exact.congr (by simp [← hiff]) (fun _ _ => rfl)
  | false => exact (exact_throw error encode).congr (by simp [← hiff]) (fun _ h => h.elim)

theorem Exact.required (exact : Exact reader encode Valid) (condition : Bool) (error : ε) :
    Exact (require condition error >>= fun _ => reader) encode
      (fun value => condition = true ∧ Valid value) :=
  exact.guarded error ⟨condition, rfl, Iff.rfl⟩

theorem exact_byte (short : ε) : Exact (byte short) (fun value => [value]) (fun _ => True) where
  reads := by
    intro data offset value next hoffset
    unfold byte byteAt
    by_cases hshort : offset ≥ data.length
    · simp [hshort, List.drop_eq_nil_of_le hshort]
    · have hlt : offset < data.length := by omega
      rw [List.drop_eq_getElem_cons hlt]
      simp only [hshort, ↓reduceIte, List.getElem?_eq_getElem hlt, Except.ok.injEq,
        Prod.mk.injEq, List.length_singleton, List.cons_prefix_cons, List.nil_prefix, and_true,
        true_and]
      exact ⟨fun h => ⟨h.2.symm, h.1.symm⟩, fun h => ⟨h.2.symm, h.1.symm⟩⟩
  inBounds := by
    intro data offset index _
    unfold byte byteAt
    by_cases hshort : offset ≥ data.length
    · simp [hshort]
    · simp [hshort, List.getElem?_eq_getElem (show offset < data.length by omega)]

theorem exact_take (count : Nat) (short : ε) :
    Exact (take count short) id (fun bytes => bytes.length = count) where
  reads := by
    intro data offset value next hoffset
    unfold take copyBytes
    by_cases hshort : offset + count > data.length
    · simp only [hshort, ↓reduceIte, reduceCtorEq, id_eq, false_iff]
      rintro ⟨hlength, _, hstart⟩
      have := hstart.length_le
      rw [List.length_drop] at this
      omega
    · have hroom : offset + count ≤ data.length := by omega
      simp only [hshort, ↓reduceIte, hroom, Except.ok.injEq, Prod.mk.injEq, id_eq]
      constructor
      · rintro ⟨rfl, rfl⟩
        have hlength : ((data.drop offset).take count).length = count := by
          rw [List.length_take, List.length_drop]
          omega
        exact ⟨hlength, by rw [hlength], List.take_prefix _ _⟩
      · rintro ⟨rfl, rfl, hstart⟩
        exact ⟨(List.prefix_iff_eq_take.mp hstart).symm, rfl⟩
  inBounds := by
    intro data offset index _
    unfold take copyBytes
    by_cases hshort : offset + count > data.length
    · simp [hshort]
    · have hroom : offset + count ≤ data.length := by omega
      simp [hshort, hroom]

/-- A counted loop of exact reads. -/
theorem Exact.replicate (exact : Exact reader encode Valid) (count : Nat) :
    Exact (replicate reader count) (fun values => values.flatMap encode)
      (fun values => values.length = count ∧ ∀ value ∈ values, Valid value) := by
  induction count with
  | zero =>
      refine (exact_pure (ε := ε) ([] : List α)).congr (fun values => ?_) (fun values h => ?_)
      · constructor
        · rintro rfl
          simp
        · exact fun h => List.length_eq_zero_iff.mp h.1
      · simp [h]
  | succ count ih =>
      -- The head of a list is the part read first; the loop's tail is the part of the rest.
      have htail : ∀ value, Exact (ε := ε)
          (Reader.replicate reader count >>= fun rest => Reader.pure (value :: rest))
          (fun values => values.tail.flatMap encode)
          (fun values => (values.tail.length = count ∧ ∀ item ∈ values.tail, Valid item) ∧
            value :: values.tail = values) :=
        fun value => ih.map (fun rest => value :: rest) List.tail
          (fun rest => rfl)
      constructor
      · intro data offset values next hoffset
        cases values with
        | nil =>
            constructor
            · intro h
              change Reader.bind reader _ data offset = _ at h
              unfold Reader.bind at h
              split at h
              · next value middle hfirst =>
                  have := ((htail value).reads _ _ _ _ (exact.next_le hoffset hfirst)).mp h
                  simp at this
              · cases h
            · rintro ⟨⟨hlength, _⟩, _⟩
              simp at hlength
        | cons head rest =>
            have hwhole := exact.bind (fun values => values.headD head) htail
              (fun value values h => by rw [← h.2]; rfl)
            rw [show Reader.replicate reader (count + 1) = (reader >>= fun value =>
              Reader.replicate reader count >>= fun rest => Reader.pure (value :: rest)) from rfl,
              hwhole.reads data offset (head :: rest) next hoffset]
            simp [and_assoc, and_left_comm]
      · intro data offset index hoffset h
        change Reader.bind reader _ data offset = _ at h
        unfold Reader.bind at h
        split at h
        · next value middle hfirst =>
            exact (htail value).inBounds _ _ index (exact.next_le hoffset hfirst) h
        · next fault hfirst =>
            cases h
            exact exact.inBounds _ _ index hoffset hfirst

/-- Reading a whole buffer and refusing what is left over accepts exactly the
encodings of valid values. -/
theorem Exact.whole (exact : Exact reader encode Valid) (data : Bytes) (value : α) :
    reader data 0 = .ok (value, data.length) ↔ Valid value ∧ data = encode value := by
  rw [exact.reads data 0 value data.length (Nat.zero_le _), List.drop_zero, Nat.zero_add]
  refine and_congr_right fun _ => ?_
  constructor
  · rintro ⟨hlength, hstart⟩
    exact (hstart.eq_of_length hlength.symm).symm
  · rintro rfl
    exact ⟨rfl, List.prefix_refl _⟩

end Rules

section Evaluation

variable {first : Reader ε α} {next : α → Reader ε β} {bytes more rest : Bytes}
  {value : α} {result : β}

/-- In front of `rest`, the reader takes exactly `bytes` and yields `value`. -/
def Reads (reader : Reader ε α) (bytes : Bytes) (value : α) (rest : Bytes) : Prop :=
  ∀ front, reader (front ++ (bytes ++ rest)) front.length = .ok (value, front.length + bytes.length)

theorem reads_pure (value : α) (rest : Bytes) : Reads (ε := ε) (Reader.pure value) [] value rest :=
  fun _ => rfl

theorem reads_require {condition : Bool} (h : condition = true) (error : ε) (rest : Bytes) :
    Reads (require condition error) [] () rest := by
  subst h
  exact fun _ => rfl

theorem Reads.bind (hfirst : Reads first bytes value (more ++ rest))
    (hnext : Reads (next value) more result rest) :
    Reads (first >>= next) (bytes ++ more) result rest := by
  intro front
  have hrun := hfirst front
  have hthen := hnext (front ++ bytes)
  rw [List.append_assoc, List.length_append] at hthen
  change Reader.bind first next _ _ = _
  rw [List.append_assoc, Reader.bind, hrun]
  dsimp only
  rw [hthen, List.length_append, Nat.add_assoc]

/-- A step that takes no bytes. -/
theorem Reads.then (hfirst : Reads first [] value (more ++ rest))
    (hnext : Reads (next value) more result rest) : Reads (first >>= next) more result rest :=
  hfirst.bind hnext

/-- A counted loop over encoded items. -/
theorem Reads.replicate {item : Reader ε α} {encode : γ → Bytes} {decode : γ → α} (items : List γ)
    (hitem : ∀ value ∈ items, ∀ rest, Reads item (encode value) (decode value) rest)
    (rest : Bytes) :
    Reads (Reader.replicate item items.length) (items.flatMap encode) (items.map decode) rest := by
  induction items with
  | nil => exact reads_pure [] rest
  | cons head tail ih =>
      rw [List.forall_mem_cons] at hitem
      have htail : Reads (Reader.replicate item tail.length >>= fun others =>
          Reader.pure (decode head :: others)) (tail.flatMap encode ++ [])
          (decode head :: tail.map decode) rest :=
        (show Reads _ _ _ ([] ++ rest) from ih hitem.2).bind (reads_pure _ rest)
      rw [List.append_nil] at htail
      exact (hitem.1 _).bind htail

end Evaluation

section Inversion

variable {first : Reader ε α} {next : α → Reader ε β}

/-- What the reader accepts begins with bytes of the layout of its value, behind
which it stops. The layout also sees what follows. -/
def Consumes (reader : Reader ε α) (Layout : α → Bytes → Bytes → Prop) : Prop :=
  ∀ data offset value stop, offset ≤ data.length → reader data offset = .ok (value, stop) →
    ∃ bytes rest, data.drop offset = bytes ++ rest ∧ stop = offset + bytes.length ∧
      Layout value bytes rest

theorem consumes_pure {Layout : α → Bytes → Bytes → Prop} {value : α}
    (h : ∀ rest, Layout value [] rest) : Consumes (ε := ε) (Reader.pure value) Layout := by
  rintro data offset value stop _ ⟨⟩
  exact ⟨[], data.drop offset, rfl, rfl, h _⟩

theorem consumes_throw {Layout : α → Bytes → Bytes → Prop} (error : ε) :
    Consumes (throw error) Layout := by
  rintro data offset value stop _ ⟨⟩

theorem consumes_require (condition : Bool) (error : ε) :
    Consumes (require condition error) (fun _ bytes _ => bytes = [] ∧ condition = true) := by
  cases condition with
  | true => exact consumes_pure fun _ => ⟨rfl, rfl⟩
  | false => exact consumes_throw error

theorem consumes_take (count : Nat) (short : ε) :
    Consumes (take count short) (fun value bytes _ => bytes = value ∧ value.length = count) := by
  intro data offset value stop hoffset h
  obtain ⟨hlength, hstop, rest, hrest⟩ := ((exact_take count short).reads _ _ _ _ hoffset).mp h
  exact ⟨value, rest, hrest.symm, hstop, rfl, hlength⟩

/-- What a part has read stands in front of what the rest reads. -/
theorem Consumes.bind {LayoutFirst : α → Bytes → Bytes → Prop} {Layout : β → Bytes → Bytes → Prop}
    (hfirst : Consumes first LayoutFirst)
    (hnext : ∀ value front others, LayoutFirst value front others →
      Consumes (next value) (fun result back rest => Layout result (front ++ back) rest)) :
    Consumes (first >>= next) Layout := by
  intro data offset result stop hoffset h
  change Reader.bind first next data offset = _ at h
  unfold Reader.bind at h
  split at h
  · next value middle hread =>
      obtain ⟨front, others, hdrop, rfl, hfront⟩ := hfirst _ _ _ _ hoffset hread
      have hmiddle : offset + front.length ≤ data.length := by
        have := congrArg List.length hdrop
        rw [List.length_drop, List.length_append] at this
        omega
      obtain ⟨back, rest, hback, rfl, hresult⟩ :=
        hnext value front others hfront _ _ _ _ hmiddle h
      refine ⟨front ++ back, rest, ?_, by rw [List.length_append, Nat.add_assoc], hresult⟩
      rw [← List.drop_drop, hdrop, List.drop_left] at hback
      rw [hdrop, hback, List.append_assoc]
  · cases h

/-- A counted loop reads one item behind the other. -/
theorem Consumes.replicate {Item : α → Bytes → Prop}
    (hitem : Consumes first (fun value bytes _ => Item value bytes)) (count : Nat) :
    Consumes (Reader.replicate first count) (fun values bytes _ =>
      ∃ parts, parts.length = count ∧ bytes = parts.flatten ∧ List.Forall₂ Item values parts) := by
  induction count with
  | zero => exact consumes_pure fun _ => ⟨[], rfl, rfl, .nil⟩
  | succ count ih =>
      apply hitem.bind
      intro value front _ hfront
      apply ih.bind
      rintro values back _ ⟨parts, hlength, rfl, hparts⟩
      apply consumes_pure
      intro _
      exact ⟨front :: parts, congrArg (· + 1) hlength, by rw [List.append_nil]; rfl,
        .cons hfront hparts⟩

end Inversion

section Extension

variable {short : ε} {first : Reader ε α} {next : α → Reader ε β}

/-- The reader stops inside the buffer, and unless it raised `short` it reads the
same in a longer buffer. -/
structure Settles (short : ε) (reader : Reader ε α) : Prop where
  inside : ∀ data offset value stop, offset ≤ data.length →
    reader data offset = .ok (value, stop) → offset ≤ stop ∧ stop ≤ data.length
  stable : ∀ data more offset, offset ≤ data.length →
    reader data offset ≠ .error (.thrown short) → reader (data ++ more) offset = reader data offset

theorem settles_pure (value : α) : Settles short (Reader.pure value) where
  inside := by
    rintro data offset _ stop hoffset ⟨⟩
    exact ⟨le_refl _, hoffset⟩
  stable := fun _ _ _ _ _ => rfl

theorem settles_check (condition : Except (Fault ε) Bool) (error : ε) :
    Settles short (check condition error) where
  inside := by
    intro data offset value stop hoffset h
    unfold check at h
    split at h
    · cases h
      exact ⟨le_refl _, hoffset⟩
    · cases h
    · cases h
  stable := by
    intro data more offset _ _
    unfold check
    split <;> rfl

theorem Settles.bind (hfirst : Settles short first) (hnext : ∀ value, Settles short (next value)) :
    Settles short (first >>= next) where
  inside := by
    intro data offset result stop hoffset h
    change Reader.bind first next data offset = _ at h
    unfold Reader.bind at h
    split at h
    · next value middle hread =>
        have hmiddle := hfirst.inside _ _ _ _ hoffset hread
        have hstop := (hnext value).inside _ _ _ _ hmiddle.2 h
        omega
    · cases h
  stable := by
    intro data more offset hoffset h
    change Reader.bind first next data offset ≠ _ at h
    change Reader.bind first next (data ++ more) offset = Reader.bind first next data offset
    unfold Reader.bind at h ⊢
    cases hread : first data offset with
    | error fault =>
        rw [hread] at h
        dsimp only at h
        have hfault : fault ≠ .thrown short := fun hshort => h (congrArg Except.error hshort)
        have hsame := hfirst.stable data more offset hoffset
          (by rw [hread]; exact fun hshort => hfault (Except.error.inj hshort))
        rw [hsame, hread]
    | ok result =>
        obtain ⟨value, middle⟩ := result
        rw [hread] at h
        have hsame := hfirst.stable data more offset hoffset (by rw [hread]; nofun)
        rw [hsame, hread]
        exact (hnext value).stable data more middle (hfirst.inside _ _ _ _ hoffset hread).2 h

/-- A read of `count` bytes behind a check that they are there. -/
def counted (count : Nat) (short : ε) (read : Bytes → Nat → Except (Fault ε) α) : Reader ε α :=
  fun data offset =>
    if count > data.length - offset then .error (.thrown short)
    else (read data offset).map fun value => (value, offset + count)

theorem settles_counted {count : Nat} {read : Bytes → Nat → Except (Fault ε) α}
    (hread : ∀ data more offset, offset + count ≤ data.length →
      read (data ++ more) offset = read data offset) :
    Settles short (counted count short read) where
  inside := by
    intro data offset value stop hoffset h
    unfold counted at h
    split at h
    · cases h
    · next hroom =>
        cases hvalue : read data offset with
        | error fault => rw [hvalue] at h; cases h
        | ok _ =>
            rw [hvalue] at h
            cases h
            omega
  stable := by
    intro data more offset hoffset h
    unfold counted at h ⊢
    by_cases hroom : count > data.length - offset
    · exact absurd (if_pos hroom) h
    · rw [if_neg hroom, if_neg (by rw [List.length_append]; omega), hread _ _ _ (by omega)]

/-- The reader takes at most `most` bytes, and raises `short` only in front of
fewer. -/
structure Within (short : ε) (most : Nat) (reader : Reader ε α) : Prop where
  stops : ∀ data offset value stop, reader data offset = .ok (value, stop) → stop ≤ offset + most
  raises : ∀ data offset, offset ≤ data.length → reader data offset = .error (.thrown short) →
    data.length < offset + most

theorem within_pure (value : α) : Within short 0 (Reader.pure value) where
  stops := by
    rintro data offset _ stop ⟨⟩
    exact le_refl _
  raises := by
    rintro data offset _ ⟨⟩

theorem Within.mono {reader : Reader ε α} {most more : Nat} (h : Within short most reader)
    (hle : most ≤ more) : Within short more reader where
  stops := by
    intro data offset value stop hread
    have := h.stops data offset value stop hread
    omega
  raises := by
    intro data offset hoffset hread
    have := h.raises data offset hoffset hread
    omega

/-- Behind a check that raises something else. -/
theorem Within.checked {reader : Reader ε α} {most : Nat} {condition : Except (Fault ε) Bool}
    {error : ε} (hcondition : ∀ fault, condition ≠ .error fault) (herror : error ≠ short)
    (h : condition = .ok true → Within short most reader) :
    Within short most (check condition error >>= fun _ => reader) := by
  cases condition with
  | error fault => exact absurd rfl (hcondition fault)
  | ok holds =>
      cases holds with
      | true => exact h rfl
      | false =>
          constructor
          · rintro data offset value stop ⟨⟩
          · intro data offset _ hread
            exact absurd (Fault.thrown.inj (Except.error.inj hread)) herror

theorem Within.required {reader : Reader ε α} {most : Nat} {condition : Bool} {error : ε}
    (herror : error ≠ short) (h : condition = true → Within short most reader) :
    Within short most (require condition error >>= fun _ => reader) :=
  Within.checked (fun _ => by exact nofun) herror fun hholds => h (Except.ok.inj hholds)

theorem Within.bind {most behind : Nat} (hfirst : Within short most first)
    (hinside : Settles short first) (hnext : ∀ value, Within short behind (next value)) :
    Within short (most + behind) (first >>= next) where
  stops := by
    intro data offset result stop h
    change Reader.bind first next data offset = _ at h
    unfold Reader.bind at h
    split at h
    · next value middle hread =>
        have hmiddle := hfirst.stops _ _ _ _ hread
        have hstop := (hnext value).stops _ _ _ _ h
        omega
    · cases h
  raises := by
    intro data offset hoffset h
    change Reader.bind first next data offset = _ at h
    unfold Reader.bind at h
    split at h
    · next value middle hread =>
        have hmiddle := hfirst.stops _ _ _ _ hread
        have hraise := (hnext value).raises _ _ (hinside.inside _ _ _ _ hoffset hread).2 h
        omega
    · next fault hread =>
        cases h
        have := hfirst.raises _ _ hoffset hread
        omega

theorem within_counted {count : Nat} {read : Bytes → Nat → Except (Fault ε) α}
    (hread : ∀ data offset, read data offset ≠ .error (.thrown short)) :
    Within short count (counted count short read) where
  stops := by
    intro data offset value stop h
    unfold counted at h
    split at h
    · cases h
    · cases hvalue : read data offset with
      | error fault => rw [hvalue] at h; cases h
      | ok _ =>
          rw [hvalue] at h
          cases h
          exact le_refl _
  raises := by
    intro data offset hoffset h
    unfold counted at h
    split at h
    · omega
    · cases hvalue : read data offset with
      | error fault =>
          rw [hvalue] at h
          cases h
          exact absurd hvalue (hread data offset)
      | ok _ => rw [hvalue] at h; cases h

theorem byteAt_append {data more : Bytes} {index : Nat} (h : index < data.length) :
    byteAt (ε := ε) (data ++ more) index = byteAt data index := by
  rw [byteAt, byteAt, List.getElem?_append_left h]

theorem copyBytes_append {data more : Bytes} {start count : Nat}
    (h : start + count ≤ data.length) :
    copyBytes (ε := ε) (data ++ more) start count = copyBytes data start count := by
  have hlength : start + count ≤ (data ++ more).length := by
    rw [List.length_append]
    omega
  rw [copyBytes, copyBytes, if_pos h, if_pos hlength, List.drop_append_of_le_length (by omega),
    List.take_append_of_le_length (by rw [List.length_drop]; omega)]

end Extension

end Reader

end Octets
