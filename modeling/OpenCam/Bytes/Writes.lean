import OpenCam.Bytes.BigEndian

/-!
Writes to a buffer. A write puts bytes at an offset; what a sequence of them leaves at an
index is read off the writes that cover it.
-/

namespace Octets

theorem getD_zeros (size index : Nat) : (List.replicate size (0 : UInt8)).getD index 0 = 0 := by
  rw [List.getD_eq_getElem?_getD, List.getElem?_replicate]
  split
  · rfl
  · rfl

/-- Bytes that are copied to an offset. -/
structure Write where
  offset : Nat
  bytes : Bytes
deriving DecidableEq, Repr

namespace Write

def apply (buffer : Bytes) (write : Write) : Bytes :=
  buffer.take write.offset ++ write.bytes ++ buffer.drop (write.offset + write.bytes.length)

/-- The write stays inside a buffer of this size. -/
def Fits (write : Write) (size : Nat) : Prop := write.offset + write.bytes.length ≤ size

def Covers (write : Write) (index : Nat) : Prop :=
  write.offset ≤ index ∧ index < write.offset + write.bytes.length

instance (write : Write) (index : Nat) : Decidable (write.Covers index) :=
  inferInstanceAs (Decidable (write.offset ≤ index ∧ index < write.offset + write.bytes.length))

/-- What the write puts at an index that it covers. -/
def byteAt (write : Write) (index : Nat) : UInt8 := write.bytes.getD (index - write.offset) 0

def applyAll (buffer : Bytes) (writes : List Write) : Bytes := writes.foldl apply buffer

section Single

variable {write : Write} {buffer : Bytes} {index : Nat}

theorem apply_length (h : write.Fits buffer.length) : (apply buffer write).length = buffer.length := by
  unfold Fits at h
  simp only [apply, List.length_append, List.length_take, List.length_drop]
  omega

theorem apply_covered (h : write.Fits buffer.length) (hindex : write.Covers index) :
    (apply buffer write).getD index 0 = write.byteAt index := by
  obtain ⟨hlow, hhigh⟩ := hindex
  unfold Fits at h
  have hfront : (buffer.take write.offset).length = write.offset := List.length_take_of_le (by omega)
  have hinside : index < (buffer.take write.offset ++ write.bytes).length := by
    rw [List.length_append]
    omega
  rw [apply, byteAt, List.getD_eq_getElem?_getD, List.getD_eq_getElem?_getD,
    List.getElem?_append_left hinside, List.getElem?_append_right (by omega), hfront]

theorem apply_other (h : write.Fits buffer.length) (hindex : ¬ write.Covers index) :
    (apply buffer write).getD index 0 = buffer.getD index 0 := by
  unfold Fits at h
  unfold Covers at hindex
  have hfront : (buffer.take write.offset).length = write.offset := List.length_take_of_le (by omega)
  have hmiddle : (buffer.take write.offset ++ write.bytes).length =
      write.offset + write.bytes.length := by
    rw [List.length_append, hfront]
  rw [apply, List.getD_eq_getElem?_getD, List.getD_eq_getElem?_getD]
  by_cases hlow : index < write.offset
  · rw [List.getElem?_append_left (by omega), List.getElem?_append_left (by omega),
      List.getElem?_take_of_lt hlow]
  · rw [List.getElem?_append_right (by omega), hmiddle, List.getElem?_drop,
      Nat.add_sub_of_le (by omega)]

end Single

section Sequence

variable {writes : List Write} {buffer : Bytes} {index : Nat}

theorem applyAll_append (buffer : Bytes) (front back : List Write) :
    applyAll buffer (front ++ back) = applyAll (applyAll buffer front) back := List.foldl_append

theorem applyAll_length (h : ∀ write ∈ writes, write.Fits buffer.length) :
    (applyAll buffer writes).length = buffer.length := by
  induction writes generalizing buffer with
  | nil => rfl
  | cons write writes ih =>
      rw [List.forall_mem_cons] at h
      have hlength := apply_length h.1
      rw [applyAll, List.foldl_cons]
      change (applyAll (apply buffer write) writes).length = _
      rw [ih (by rw [hlength]; exact h.2), hlength]

/-- What no write covers stays. -/
theorem applyAll_other (h : ∀ write ∈ writes, write.Fits buffer.length)
    (hindex : ∀ write ∈ writes, ¬ write.Covers index) :
    (applyAll buffer writes).getD index 0 = buffer.getD index 0 := by
  induction writes generalizing buffer with
  | nil => rfl
  | cons write writes ih =>
      rw [List.forall_mem_cons] at h hindex
      rw [applyAll, List.foldl_cons]
      change (applyAll (apply buffer write) writes).getD index 0 = _
      rw [ih (by rw [apply_length h.1]; exact h.2) hindex.2, apply_other h.1 hindex.1]

/-- Where all writes that cover an index put the same byte, and it was there before or one
of them does cover the index, it is there. -/
theorem applyAll_agree {byte : UInt8} (h : ∀ write ∈ writes, write.Fits buffer.length)
    (hagree : ∀ write ∈ writes, write.Covers index → write.byteAt index = byte)
    (hsome : buffer.getD index 0 = byte ∨ ∃ write ∈ writes, write.Covers index) :
    (applyAll buffer writes).getD index 0 = byte := by
  induction writes generalizing buffer with
  | nil =>
      rcases hsome with hbyte | ⟨write, hmem, _⟩
      · exact hbyte
      · cases hmem
  | cons write writes ih =>
      rw [List.forall_mem_cons] at h hagree
      rw [applyAll, List.foldl_cons]
      apply ih (by rw [apply_length h.1]; exact h.2) hagree.2
      by_cases hcovers : write.Covers index
      · exact Or.inl ((apply_covered h.1 hcovers).trans (hagree.1 hcovers))
      · rw [apply_other h.1 hcovers]
        rcases hsome with hbyte | ⟨other, hmem, hother⟩
        · exact Or.inl hbyte
        · rcases List.mem_cons.mp hmem with rfl | hmem
          · exact absurd hother hcovers
          · exact Or.inr ⟨other, hmem, hother⟩

end Sequence

section Rows

/-- The rows of a picture: `width` bytes each, `stride` bytes apart. -/
def rows (start stride width height : Nat) (byte : Nat → Nat → UInt8) : List Write :=
  (List.range height).map fun row => ⟨start + row * stride, (List.range width).map (byte row)⟩

variable {top left stride width height : Nat} {byte : Nat → Nat → UInt8} {buffer : Bytes}

theorem mem_rows {start : Nat} {write : Write} :
    write ∈ rows start stride width height byte ↔
      ∃ row, row < height ∧ ⟨start + row * stride, (List.range width).map (byte row)⟩ = write := by
  simp only [rows, List.mem_map, List.mem_range]

/-- The rows of a picture inside a container stay in the container. -/
theorem rows_fit (byte : Nat → Nat → UInt8) {size : Nat} (hwidth : left + width ≤ stride)
    (hsize : (top + height) * stride ≤ size) :
    ∀ write ∈ rows (top * stride + left) stride width height byte, write.Fits size := by
  intro write hmem
  obtain ⟨row, hrow, rfl⟩ := mem_rows.mp hmem
  have hrows : (top + row + 1) * stride ≤ (top + height) * stride :=
    Nat.mul_le_mul_right _ (by omega)
  rw [Nat.succ_mul, Nat.add_mul] at hrows
  simp only [Fits, List.length_map, List.length_range]
  omega

theorem place_unique {line row column other : Nat} (hcolumn : column < stride)
    (hother : other < stride) (h : line * stride + column = row * stride + other) :
    line = row ∧ column = other := by
  have hpos : 0 < stride := by omega
  have hline : line = row := by
    have hdiv := congrArg (· / stride) h
    simpa only [Nat.mul_comm _ stride, Nat.mul_add_div hpos, Nat.div_eq_of_lt hcolumn,
      Nat.div_eq_of_lt hother, Nat.add_zero] using hdiv
  subst hline
  exact ⟨rfl, Nat.add_left_cancel h⟩

theorem row_covers {line column row : Nat} (hwidth : left + width ≤ stride) (hcolumn : column < stride) :
    (⟨top * stride + left + row * stride, (List.range width).map (byte row)⟩ : Write).Covers
        (line * stride + column) ↔
      line = top + row ∧ left ≤ column ∧ column < left + width := by
  simp only [Covers, List.length_map, List.length_range]
  constructor
  · rintro ⟨hlow, hhigh⟩
    have hplace : ∃ other, other < width ∧
        line * stride + column = (top + row) * stride + (left + other) := by
      refine ⟨line * stride + column - (top * stride + left + row * stride), by omega, ?_⟩
      rw [Nat.add_mul]
      omega
    obtain ⟨other, hother, hplace⟩ := hplace
    obtain ⟨rfl, rfl⟩ := place_unique hcolumn (by omega) hplace
    omega
  · rintro ⟨rfl, hlow, hhigh⟩
    rw [Nat.add_mul]
    omega

/-- What the rows of a picture leave at a place of their container. -/
theorem applyAll_rows {line column : Nat} (hwidth : left + width ≤ stride) (hcolumn : column < stride)
    (hsize : (top + height) * stride ≤ buffer.length) :
    (applyAll buffer (rows (top * stride + left) stride width height byte)).getD
        (line * stride + column) 0 =
      if (top ≤ line ∧ line < top + height) ∧ left ≤ column ∧ column < left + width then
        byte (line - top) (column - left)
      else buffer.getD (line * stride + column) 0 := by
  have hfit := rows_fit byte hwidth hsize
  split
  · next hinside =>
      obtain ⟨⟨htop, hbottom⟩, hleft, hright⟩ := hinside
      apply applyAll_agree hfit
      · intro write hmem hcovers
        obtain ⟨row, hrow, rfl⟩ := mem_rows.mp hmem
        obtain ⟨rfl, _⟩ := (row_covers hwidth hcolumn).mp hcovers
        have hindex : (top + row) * stride + column - (top * stride + left + row * stride) =
            column - left := by
          rw [Nat.add_mul]
          omega
        have hbound : column - left < width := by omega
        rw [byteAt, hindex, Nat.add_sub_cancel_left, List.getD_eq_getElem?_getD, List.getElem?_map,
          List.getElem?_range hbound]
        rfl
      · refine Or.inr ⟨_, mem_rows.mpr ⟨line - top, by omega, rfl⟩, ?_⟩
        exact (row_covers hwidth hcolumn).mpr ⟨by omega, hleft, hright⟩
  · next houtside =>
      apply applyAll_other hfit
      intro write hmem hcovers
      obtain ⟨row, hrow, rfl⟩ := mem_rows.mp hmem
      obtain ⟨rfl, hcolumns⟩ := (row_covers hwidth hcolumn).mp hcovers
      exact houtside ⟨by omega, hcolumns⟩

end Rows

end Write

end Octets
