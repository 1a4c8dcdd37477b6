import OpenCam.Bytes.Writes
import OpenCam.Linux.MediaPipeline

/-!
How `writePackedYuv420` packs a frame. The rows are copied and padded by writes that stay
in the area of their plane; together they leave every pixel at its place and zeros
everywhere else.
-/

namespace OpenCam.Linux.MediaPipeline

open Octets Interaction Control

section Areas

inductive PlaneName where
  | y
  | u
  | v
deriving DecidableEq, Repr

/-- Where a plane is packed: its rows, and how they are spaced. -/
structure PlaneArea where
  plane : Plane
  start : Nat
  stride : Nat
  width : Nat
  height : Nat
deriving DecidableEq, Repr

namespace PlaneArea

variable (area : PlaneArea) (row : Nat)

/-- The `memcpy` of a row. -/
def copy : Write := ⟨area.start + row * area.stride, area.plane.row row area.width⟩

/-- The `memset` behind a row. -/
def pad : List Write :=
  if area.stride > area.width then
    [⟨area.start + row * area.stride + area.width, List.replicate (area.stride - area.width) 0⟩]
  else []

def writes : List Write := area.copy row :: area.pad row

/-- Where the area ends. -/
def stop : Nat := area.start + area.height * area.stride

end PlaneArea

/-- The three planes of a frame in the packed buffer. -/
def area (frame : ConvertedFrame) (layout : OutputLayout) : PlaneName → PlaneArea
  | .y => ⟨frame.y, 0, layout.yStride, OUTPUT_WIDTH, OUTPUT_HEIGHT⟩
  | .u => ⟨frame.u, layout.yStride * OUTPUT_HEIGHT, layout.chromaStride, OUTPUT_WIDTH / 2,
      OUTPUT_HEIGHT / 2⟩
  | .v => ⟨frame.v, layout.yStride * OUTPUT_HEIGHT + layout.chromaStride * (OUTPUT_HEIGHT / 2),
      layout.chromaStride, OUTPUT_WIDTH / 2, OUTPUT_HEIGHT / 2⟩

/-- The writes of the packing loops in their order, each with the plane it is for. -/
def packWrites (frame : ConvertedFrame) (layout : OutputLayout) : List (PlaneName × Write) :=
  let copy name row := (name, (area frame layout name).copy row)
  let pad name row := ((area frame layout name).pad row).map fun write => (name, write)
  (List.range OUTPUT_HEIGHT).flatMap (fun row => copy .y row :: pad .y row) ++
    (List.range (OUTPUT_HEIGHT / 2)).flatMap fun row =>
      copy .u row :: copy .v row :: (pad .u row ++ pad .v row)

theorem copyRow_eq (area : PlaneArea) (row : Nat) (buffer : Bytes) :
    copyRow area.plane area.start area.stride area.width row buffer =
      Write.apply buffer (area.copy row) := rfl

theorem padRow_eq (area : PlaneArea) (row : Nat) (buffer : Bytes) :
    padRow area.start area.stride area.width row buffer =
      Write.applyAll buffer (area.pad row) := by
  unfold padRow PlaneArea.pad
  split
  · rfl
  · rfl

theorem map_snd_tagged (name : PlaneName) (writes : List Write) :
    (writes.map fun write => (name, write)).map Prod.snd = writes := by
  simp

/-- The packed frame is what the writes leave of a buffer of zeros. -/
theorem packFrame_eq_writes (frame : ConvertedFrame) (layout : OutputLayout) :
    packFrame frame layout = Write.applyAll (List.replicate layout.packedFrameSize 0)
      ((packWrites frame layout).map Prod.snd) := by
  have hluma : ∀ packed row, padRow 0 layout.yStride OUTPUT_WIDTH row
      (copyRow frame.y 0 layout.yStride OUTPUT_WIDTH row packed) =
        Write.applyAll packed ((area frame layout .y).writes row) := by
    intro packed row
    exact padRow_eq (area frame layout .y) row _
  have hchroma : ∀ packed row,
      padRow (area frame layout .v).start layout.chromaStride (OUTPUT_WIDTH / 2) row
        (padRow (area frame layout .u).start layout.chromaStride (OUTPUT_WIDTH / 2) row
          (copyRow frame.v (area frame layout .v).start layout.chromaStride (OUTPUT_WIDTH / 2) row
            (copyRow frame.u (area frame layout .u).start layout.chromaStride (OUTPUT_WIDTH / 2) row
              packed))) =
        Write.applyAll packed ((area frame layout .u).copy row :: (area frame layout .v).copy row ::
          ((area frame layout .u).pad row ++ (area frame layout .v).pad row)) := by
    intro packed row
    rw [Write.applyAll, List.foldl_cons, List.foldl_cons, List.foldl_append]
    rw [show ∀ buffer, padRow (area frame layout .v).start layout.chromaStride (OUTPUT_WIDTH / 2) row
        buffer = Write.applyAll buffer ((area frame layout .v).pad row) from
          padRow_eq (area frame layout .v) row]
    rw [show ∀ buffer, padRow (area frame layout .u).start layout.chromaStride (OUTPUT_WIDTH / 2) row
        buffer = Write.applyAll buffer ((area frame layout .u).pad row) from
          padRow_eq (area frame layout .u) row]
    rfl
  calc packFrame frame layout
      = (List.range (OUTPUT_HEIGHT / 2)).foldl (fun packed row => Write.applyAll packed
          ((area frame layout .u).copy row :: (area frame layout .v).copy row ::
            ((area frame layout .u).pad row ++ (area frame layout .v).pad row)))
          ((List.range OUTPUT_HEIGHT).foldl (fun packed row =>
            Write.applyAll packed ((area frame layout .y).writes row))
            (List.replicate layout.packedFrameSize 0)) := by
        simp only [← hluma, ← hchroma]
        rfl
    _ = Write.applyAll (List.replicate layout.packedFrameSize 0)
          ((packWrites frame layout).map Prod.snd) := by
        rw [packWrites, List.map_append, List.map_flatMap, List.map_flatMap, Write.applyAll_append,
          Write.applyAll, Write.applyAll, List.foldl_flatMap, List.foldl_flatMap]
        simp only [List.map_cons, List.map_append, map_snd_tagged]
        rfl

/-- The writes of the loops are the row writes of the three areas. -/
theorem mem_packWrites {frame : ConvertedFrame} {layout : OutputLayout} {name : PlaneName}
    {write : Write} : (name, write) ∈ packWrites frame layout ↔
      ∃ row, row < (area frame layout name).height ∧ write ∈ (area frame layout name).writes row := by
  simp only [packWrites, List.mem_append, List.mem_flatMap, List.mem_range, List.mem_cons,
    List.mem_map, Prod.mk.injEq, PlaneArea.writes]
  cases name with
  | y => simp [area, and_comm]
  | u => simp [area, and_comm]
  | v => simp [area, and_comm]

end Areas

section Rows

/-- The pixel of a plane at a row and a column. -/
def Plane.pixel (plane : Plane) (row column : Nat) : UInt8 :=
  plane.data.getD (row * plane.linesize + column) 0

/-- A plane of this size is in memory. Its rows may be further apart than they are wide;
FFmpeg keeps a picture below `INT_MAX` bytes, so the offset of a row does not overflow. -/
structure Plane.Holds (plane : Plane) (width height : Nat) : Prop where
  linesize : width ≤ plane.linesize
  data : ∀ row, row < height → row * plane.linesize + width ≤ plane.data.length

theorem Plane.Holds.row {plane : Plane} {width height row : Nat} (h : plane.Holds width height)
    (hrow : row < height) : (plane.row row width).length = width ∧
      ∀ column, column < width → (plane.row row width).getD column 0 = plane.pixel row column := by
  have hdata := h.data row hrow
  constructor
  · rw [Plane.row, List.length_take, List.length_drop]
    omega
  · intro column hcolumn
    rw [Plane.row, Plane.pixel, List.getD_eq_getElem?_getD, List.getD_eq_getElem?_getD,
      List.getElem?_take_of_lt hcolumn, List.getElem?_drop]

/-- The area is wide enough for its plane, and the plane is in memory. -/
structure PlaneArea.Fitting (area : PlaneArea) : Prop where
  holds : area.plane.Holds area.width area.height
  wide : area.width ≤ area.stride

namespace PlaneArea.Fitting

variable {area : PlaneArea} {row : Nat} {write : Write}

/-- A row write stays in its row. -/
theorem in_row (h : area.Fitting) (hrow : row < area.height) (hwrite : write ∈ area.writes row) :
    area.start + row * area.stride ≤ write.offset ∧
      write.offset + write.bytes.length ≤ area.start + row * area.stride + area.stride := by
  have hwide := h.wide
  have hlength := (h.holds.row hrow).1
  rw [PlaneArea.writes, List.mem_cons] at hwrite
  rcases hwrite with rfl | hwrite
  · simp only [PlaneArea.copy, hlength]
    omega
  · unfold PlaneArea.pad at hwrite
    split at hwrite
    · rw [List.mem_singleton.mp hwrite]
      simp only [List.length_replicate]
      omega
    · cases hwrite

theorem row_stop (hrow : row < area.height) :
    area.start + row * area.stride + area.stride ≤ area.stop := by
  have hrows : (row + 1) * area.stride ≤ area.height * area.stride := Nat.mul_le_mul_right _ hrow
  rw [Nat.succ_mul] at hrows
  unfold PlaneArea.stop
  omega

/-- A row write stays in its area. -/
theorem in_area (h : area.Fitting) (hrow : row < area.height) (hwrite : write ∈ area.writes row) :
    area.start ≤ write.offset ∧ write.offset + write.bytes.length ≤ area.stop := by
  obtain ⟨hlow, hhigh⟩ := h.in_row hrow hwrite
  have hstop := @row_stop area row hrow
  omega

/-- What a row write puts at a place of the area: it is a write of that row, and it puts
the pixel there, or behind the pixels a zero. -/
theorem at_place (h : area.Fitting) (hrow : row < area.height) (hwrite : write ∈ area.writes row)
    {line column : Nat} (hcolumn : column < area.stride)
    (hcovers : write.Covers (area.start + line * area.stride + column)) :
    line = row ∧ write.byteAt (area.start + line * area.stride + column) =
      if column < area.width then area.plane.pixel row column else 0 := by
  obtain ⟨hlow, hhigh⟩ := h.in_row hrow hwrite
  obtain ⟨hfrom, hupto⟩ := hcovers
  have hline : line = row := by
    apply Nat.le_antisymm
    · by_contra hafter
      have hrows : (row + 1) * area.stride ≤ line * area.stride :=
        Nat.mul_le_mul_right _ (Nat.lt_of_not_le hafter)
      rw [Nat.succ_mul] at hrows
      omega
    · by_contra hbefore
      have hrows : (line + 1) * area.stride ≤ row * area.stride :=
        Nat.mul_le_mul_right _ (Nat.lt_of_not_le hbefore)
      rw [Nat.succ_mul] at hrows
      omega
  refine ⟨hline, ?_⟩
  subst hline
  obtain ⟨hlength, hpixel⟩ := h.holds.row hrow
  rw [PlaneArea.writes, List.mem_cons] at hwrite
  rcases hwrite with rfl | hwrite
  · simp only [PlaneArea.copy, hlength] at hfrom hupto
    have hinside : column < area.width := by omega
    rw [if_pos hinside, Write.byteAt, PlaneArea.copy, ← hpixel column hinside]
    simp only [Nat.add_sub_cancel_left]
  · unfold PlaneArea.pad at hwrite
    split at hwrite
    · rw [List.mem_singleton.mp hwrite] at hfrom hupto ⊢
      simp only [List.length_replicate] at hfrom hupto
      have hbehind : ¬ column < area.width := by omega
      rw [if_neg hbehind, Write.byteAt, getD_zeros]
    · cases hwrite

/-- Every pixel is copied. -/
theorem copied (h : area.Fitting) (hrow : row < area.height) {column : Nat}
    (hcolumn : column < area.width) :
    (area.copy row).Covers (area.start + row * area.stride + column) := by
  have hlength := (h.holds.row hrow).1
  simp only [Write.Covers, PlaneArea.copy, hlength]
  omega

end PlaneArea.Fitting

end Rows

section Layout

/-- The strides and the size of a layout belong together, and every row fits its stride. -/
structure OutputLayout.Consistent (layout : OutputLayout) : Prop where
  size : layout.packedFrameSize = 480 * layout.yStride + 2 * 240 * layout.chromaStride
  chroma : layout.chromaStride = layout.yStride / 2
  wide : 320 ≤ layout.chromaStride

theorem outputLayout_consistent {format : V4L2PixFormat} {layout : OutputLayout}
    (h : outputLayout format = .ok layout) : layout.Consistent := by
  have hstride : OUTPUT_WIDTH ≤ format.yStride := by
    unfold V4L2PixFormat.yStride
    split
    · exact Nat.le_refl _
    · omega
  unfold OUTPUT_WIDTH at hstride
  unfold outputLayout at h
  dsimp only at h
  split at h
  · cases h
  · split at h
    · cases h
    · split at h
      · cases h
      · cases h
        constructor
        · simp only [OUTPUT_HEIGHT]
          omega
        · rfl
        · dsimp only
          omega

/-- A layout that is handed back follows from a format that was negotiated. -/
theorem configureV4L2Output_layout {passes : Nat} {trace : List (Event WorkerOp WorkerOp.Res)}
    {layout : OutputLayout} (run : Runs (configureV4L2Output passes) trace (.ret (.ok layout))) :
    ∃ format, outputLayout format = .ok layout := by
  rw [configureV4L2Output] at run
  obtain ⟨capability, _, _, _, _, run⟩ := returns_bind_iff.mp run
  cases capability with
  | none => cases run
  | some capability =>
      dsimp only at run
      split at run
      · cases run
      · obtain ⟨format, _, _, _, _, run⟩ := returns_bind_iff.mp run
        cases format with
        | none => cases run
        | some format =>
            dsimp only at run
            split at run
            · cases run
            · next found hfound =>
                obtain ⟨_, _, _, _, _, run⟩ := returns_bind_iff.mp run
                cases run
                exact ⟨format, hfound⟩

variable {frame : ConvertedFrame} {layout : OutputLayout}

/-- The areas follow each other and end with the buffer. -/
theorem area_bounds (frame : ConvertedFrame) (h : layout.Consistent) :
    (area frame layout .y).stop = (area frame layout .u).start ∧
      (area frame layout .u).stop = (area frame layout .v).start ∧
      (area frame layout .v).stop = layout.packedFrameSize := by
  have hsize := h.size
  simp only [PlaneArea.stop, area, OUTPUT_HEIGHT, Nat.zero_add, hsize]
  omega

theorem stop_le_size (frame : ConvertedFrame) (h : layout.Consistent) (name : PlaneName) :
    (area frame layout name).stop ≤ layout.packedFrameSize := by
  obtain ⟨hluma, hu, hv⟩ := area_bounds frame h
  have hstop : ∀ name, (area frame layout name).start ≤ (area frame layout name).stop :=
    fun name => Nat.le_add_right _ _
  cases name with
  | y => exact hluma.le.trans ((hstop .u).trans (hu.le.trans ((hstop .v).trans hv.le)))
  | u => exact hu.le.trans ((hstop .v).trans hv.le)
  | v => exact hv.le

/-- No index is in two areas. -/
theorem area_unique (frame : ConvertedFrame) (h : layout.Consistent) {name name' : PlaneName} {index : Nat}
    (hstart : (area frame layout name).start ≤ index) (hstop : index < (area frame layout name).stop)
    (hstart' : (area frame layout name').start ≤ index)
    (hstop' : index < (area frame layout name').stop) : name = name' := by
  obtain ⟨hluma, hu, hv⟩ := area_bounds frame h
  have hu_stop : (area frame layout .u).start ≤ (area frame layout .u).stop := Nat.le_add_right _ _
  cases name with
  | y =>
      cases name' with
      | y => rfl
      | u => omega
      | v => omega
  | u =>
      cases name' with
      | y => omega
      | u => rfl
      | v => omega
  | v =>
      cases name' with
      | y => omega
      | u => omega
      | v => rfl

/-- The planes of the frame are in memory in the sizes of the output. -/
structure ConvertedFrame.Holds (frame : ConvertedFrame) : Prop where
  y : frame.y.Holds 640 480
  u : frame.u.Holds 320 240
  v : frame.v.Holds 320 240

theorem area_fitting (h : layout.Consistent) (hframe : frame.Holds) (name : PlaneName) :
    (area frame layout name).Fitting := by
  have hchroma := h.chroma
  have hwide := h.wide
  cases name with
  | y => exact ⟨hframe.y, by simp only [area, OUTPUT_WIDTH]; omega⟩
  | u => exact ⟨hframe.u, hwide⟩
  | v => exact ⟨hframe.v, hwide⟩

/-- Every write stays in the area of its plane. -/
theorem packWrites_in_area (h : layout.Consistent) (hframe : frame.Holds) {name : PlaneName}
    {write : Write} (hwrite : (name, write) ∈ packWrites frame layout) :
    (area frame layout name).start ≤ write.offset ∧
      write.offset + write.bytes.length ≤ (area frame layout name).stop := by
  obtain ⟨row, hrow, hmem⟩ := mem_packWrites.mp hwrite
  exact (area_fitting h hframe name).in_area hrow hmem

theorem packWrites_fit (h : layout.Consistent) (hframe : frame.Holds) :
    ∀ write ∈ (packWrites frame layout).map Prod.snd,
      write.Fits (List.replicate layout.packedFrameSize (0 : UInt8)).length := by
  intro write hmem
  obtain ⟨⟨name, write⟩, hwrite, rfl⟩ := List.mem_map.mp hmem
  have hstop := (packWrites_in_area h hframe hwrite).2
  have hsize := stop_le_size frame h name
  rw [List.length_replicate, Write.Fits]
  exact hstop.trans hsize

theorem packFrame_length (h : layout.Consistent) (hframe : frame.Holds) :
    (packFrame frame layout).length = layout.packedFrameSize := by
  rw [packFrame_eq_writes, Write.applyAll_length (packWrites_fit h hframe), List.length_replicate]

/-- What is packed at a place of an area: the pixel, or behind the pixels a zero. -/
theorem packFrame_at_place (h : layout.Consistent) (hframe : frame.Holds) (name : PlaneName)
    {line column : Nat} (hline : line < (area frame layout name).height)
    (hcolumn : column < (area frame layout name).stride) :
    (packFrame frame layout).getD
        ((area frame layout name).start + line * (area frame layout name).stride + column) 0 =
      if column < (area frame layout name).width then
        (area frame layout name).plane.pixel line column
      else 0 := by
  rw [packFrame_eq_writes]
  apply Write.applyAll_agree (packWrites_fit h hframe)
  · intro write hmem hcovers
    obtain ⟨⟨other, write⟩, hwrite, rfl⟩ := List.mem_map.mp hmem
    have hplace := PlaneArea.Fitting.row_stop hline
    have hother := packWrites_in_area h hframe hwrite
    -- A write of another plane stays in its own area, so it does not get here.
    have hname : name = other := by
      obtain ⟨hfrom, hupto⟩ := hcovers
      apply area_unique frame h _ _ (hother.1.trans hfrom) (hupto.trans_le hother.2)
      · omega
      · omega
    subst hname
    obtain ⟨row, hrow, hmem⟩ := mem_packWrites.mp hwrite
    obtain ⟨rfl, hbyte⟩ := (area_fitting h hframe name).at_place hrow hmem hcolumn hcovers
    exact hbyte
  · by_cases hinside : column < (area frame layout name).width
    · refine Or.inr ⟨(area frame layout name).copy line, ?_, ?_⟩
      · apply List.mem_map.mpr
        exact ⟨(name, _), mem_packWrites.mpr ⟨line, hline, List.mem_cons_self⟩, rfl⟩
      · exact (area_fitting h hframe name).copied hline hinside
    · rw [if_neg hinside]
      exact Or.inl (getD_zeros _ _)

/-- Every index of an area is a place of it. -/
theorem exists_place {area : PlaneArea} {index : Nat} (hstart : area.start ≤ index)
    (hstop : index < area.stop) :
    ∃ line column, line < area.height ∧ column < area.stride ∧
      index = area.start + line * area.stride + column := by
  unfold PlaneArea.stop at hstop
  have hinside : index - area.start < area.height * area.stride := by omega
  have hstride : 0 < area.stride := by
    rcases Nat.eq_zero_or_pos area.stride with hzero | hpos
    · rw [hzero, Nat.mul_zero] at hinside
      omega
    · exact hpos
  refine ⟨(index - area.start) / area.stride, (index - area.start) % area.stride,
    Nat.div_lt_of_lt_mul (by rwa [Nat.mul_comm] at hinside), Nat.mod_lt _ hstride, ?_⟩
  have hdivide := Nat.div_add_mod' (index - area.start) area.stride
  omega

theorem exists_area (frame : ConvertedFrame) (h : layout.Consistent) {index : Nat} (hindex : index < layout.packedFrameSize) :
    ∃ name, (area frame layout name).start ≤ index ∧ index < (area frame layout name).stop := by
  obtain ⟨hluma, hu, hv⟩ := area_bounds frame h
  have hzero : (area frame layout .y).start = 0 := rfl
  by_cases hfirst : index < (area frame layout .y).stop
  · exact ⟨.y, by omega, hfirst⟩
  · by_cases hsecond : index < (area frame layout .u).stop
    · exact ⟨.u, by omega, hsecond⟩
    · exact ⟨.v, by omega, by omega⟩

end Layout

section Packing

/-- A frame is packed in this layout: every pixel is at its place, and what is left is zero. -/
structure PackedExactly (frame : ConvertedFrame) (layout : OutputLayout) (packed : Bytes) : Prop where
  length : packed.length = layout.packedFrameSize
  y : ∀ r c, r < 480 → c < 640 → packed.getD (r * layout.yStride + c) 0 = frame.y.pixel r c
  u : ∀ r c, r < 240 → c < 320 →
    packed.getD (480 * layout.yStride + r * layout.chromaStride + c) 0 = frame.u.pixel r c
  v : ∀ r c, r < 240 → c < 320 →
    packed.getD (480 * layout.yStride + 240 * layout.chromaStride + r * layout.chromaStride + c) 0 =
      frame.v.pixel r c
  rest : ∀ index,
    (∀ r c, r < 480 → c < 640 → index ≠ r * layout.yStride + c) →
    (∀ r c, r < 240 → c < 320 → index ≠ 480 * layout.yStride + r * layout.chromaStride + c) →
    (∀ r c, r < 240 → c < 320 →
      index ≠ 480 * layout.yStride + 240 * layout.chromaStride + r * layout.chromaStride + c) →
    packed.getD index 0 = 0

variable {frame : ConvertedFrame} {layout : OutputLayout}

theorem start_u : (area frame layout .u).start = 480 * layout.yStride := Nat.mul_comm _ _

theorem start_v :
    (area frame layout .v).start = 480 * layout.yStride + 240 * layout.chromaStride := by
  simp only [area, OUTPUT_HEIGHT]
  omega

theorem packFrame_pixel (h : layout.Consistent) (hframe : frame.Holds) (name : PlaneName)
    {line column : Nat} (hline : line < (area frame layout name).height)
    (hcolumn : column < (area frame layout name).width) :
    (packFrame frame layout).getD
        ((area frame layout name).start + line * (area frame layout name).stride + column) 0 =
      (area frame layout name).plane.pixel line column := by
  have hwide := (area_fitting h hframe name).wide
  rw [packFrame_at_place h hframe name hline (hcolumn.trans_le hwide), if_pos hcolumn]

theorem packFrame_exact (h : layout.Consistent) (hframe : frame.Holds) :
    PackedExactly frame layout (packFrame frame layout) := by
  constructor
  · exact packFrame_length h hframe
  · intro r c hr hc
    have hy := packFrame_pixel h hframe .y hr hc
    simpa only [area, Nat.zero_add] using hy
  · intro r c hr hc
    have hu := packFrame_pixel h hframe .u hr hc
    rw [start_u] at hu
    exact hu
  · intro r c hr hc
    have hv := packFrame_pixel h hframe .v hr hc
    rw [start_v] at hv
    exact hv
  · intro index hy hu hv
    by_cases hindex : index < layout.packedFrameSize
    · obtain ⟨name, hstart, hstop⟩ := exists_area frame h hindex
      obtain ⟨line, column, hline, hcolumn, rfl⟩ := exists_place hstart hstop
      rw [packFrame_at_place h hframe name hline hcolumn]
      -- A pixel's place is excluded, so this one is behind the pixels.
      apply if_neg
      intro hinside
      cases name with
      | y =>
          apply hy line column hline hinside
          simp only [area, Nat.zero_add]
      | u =>
          apply hu line column hline hinside
          rw [start_u]
          rfl
      | v =>
          apply hv line column hline hinside
          rw [start_v]
          rfl
    · rw [List.getD_eq_getElem?_getD, List.getElem?_eq_none, Option.getD_none]
      rw [packFrame_length h hframe]
      omega

/-- The packed frame is all that is written. -/
theorem performs_writePacked (packed : Bytes) (error : String) (passes : Nat) :
    (writePacked packed error passes).Performs fun op => ∀ bytes, op = .write bytes → bytes = packed := by
  induction passes with
  | zero => trivial
  | succ passes ih =>
      apply Prog.performs_perform_bind (by rintro _ ⟨⟩)
      intro stopped
      split
      · trivial
      · apply Prog.performs_perform_bind (by rintro _ ⟨⟩; rfl)
        intro result
        cases result with
        | written count =>
            dsimp only
            split
            · trivial
            · trivial
        | interrupted => exact ih
        | wouldBlock =>
            apply Prog.performs_perform_bind (by rintro _ ⟨⟩)
            intro polled
            cases polled with
            | failed => trivial
            | _ => exact ih
        | failed => trivial

/-- Whatever stride is negotiated, the strides and the size belong together, and every
frame is packed exactly: by writes that stay in the buffer and in the area of their plane. -/
theorem writePackedYuv420_exact {passes : Nat} {trace : List (Event WorkerOp WorkerOp.Res)}
    {layout : OutputLayout} (run : Runs (configureV4L2Output passes) trace (.ret (.ok layout))) :
    (layout.packedFrameSize = 480 * layout.yStride + 2 * 240 * layout.chromaStride ∧
      layout.chromaStride = layout.yStride / 2 ∧ 320 ≤ layout.chromaStride) ∧
    ∀ frame : ConvertedFrame, frame.Holds →
      PackedExactly frame layout (packFrame frame layout) ∧
      (∀ error passes, (writePackedYuv420 frame layout error passes).Performs fun op =>
        ∀ bytes, op = .write bytes → bytes = packFrame frame layout) ∧
      packFrame frame layout = Write.applyAll (List.replicate layout.packedFrameSize 0)
        ((packWrites frame layout).map Prod.snd) ∧
      ∀ name write, (name, write) ∈ packWrites frame layout →
        write.offset + write.bytes.length ≤ layout.packedFrameSize ∧
        ∀ index, write.Covers index → ∀ other,
          (area frame layout other).start ≤ index → index < (area frame layout other).stop →
            other = name := by
  obtain ⟨format, hformat⟩ := configureV4L2Output_layout run
  have h := outputLayout_consistent hformat
  refine ⟨⟨h.size, h.chroma, h.wide⟩, fun frame hframe => ?_⟩
  refine ⟨packFrame_exact h hframe, fun error passes => performs_writePacked _ _ _,
    packFrame_eq_writes frame layout, fun name write hwrite => ?_⟩
  obtain ⟨hstart, hstop⟩ := packWrites_in_area h hframe hwrite
  constructor
  · exact hstop.trans (stop_le_size frame h name)
  · rintro index ⟨hfrom, hupto⟩ other hother hother'
    exact area_unique frame h hother hother' (hstart.trans hfrom) (hupto.trans_le hstop)

/-- A driver that pads its rows to 704 bytes. -/
def paddedNegotiation : List (Event WorkerOp WorkerOp.Res) :=
  [⟨.queryCapability, .done ⟨V4L2_CAP_VIDEO_OUTPUT, 0⟩⟩,
    ⟨.setFormat requestedFormat, .done { requestedFormat with bytesperline := 704, sizeimage := 0 }⟩,
    ⟨.setParameters 1 OUTPUT_FPS, .failed⟩]

theorem paddedNegotiation_runs :
    Runs (configureV4L2Output 1) paddedNegotiation (.ret (.ok ⟨506880, 704, 352⟩)) :=
  .step (.step (.step (.here _)))

/-- A frame of one colour, with rows of 768 and 384 bytes. -/
def evenFrame : ConvertedFrame :=
  ⟨⟨List.replicate (768 * 480) 16, 768⟩, ⟨List.replicate (384 * 240) 128, 384⟩,
    ⟨List.replicate (384 * 240) 129, 384⟩⟩

theorem evenFrame_holds : evenFrame.Holds := by
  have hplane : ∀ {linesize rows width : Nat} (value : UInt8), width ≤ linesize →
      (⟨List.replicate (linesize * rows) value, linesize⟩ : Plane).Holds width rows := by
    intro linesize rows width value hwidth
    refine ⟨hwidth, fun row hrow => ?_⟩
    have hrows : (row + 1) * linesize ≤ rows * linesize := Nat.mul_le_mul_right _ hrow
    rw [Nat.succ_mul] at hrows
    rw [List.length_replicate, Nat.mul_comm linesize rows]
    change row * linesize + width ≤ rows * linesize
    omega
  exact ⟨hplane 16 (by decide), hplane 128 (by decide), hplane 129 (by decide)⟩

theorem writePackedYuv420_exact_padded :
    PackedExactly evenFrame ⟨506880, 704, 352⟩ (packFrame evenFrame ⟨506880, 704, 352⟩) :=
  ((writePackedYuv420_exact paddedNegotiation_runs).2 evenFrame evenFrame_holds).1

end Packing

end OpenCam.Linux.MediaPipeline
