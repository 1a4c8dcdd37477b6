import OpenCam.Bytes.Writes

/-!
`framescaler.cpp`: frames converted into a container that keeps its buffer, its geometry and
its scaler context from one frame to the next. libswscale and the geometry of a subclass are
parameters. Signed arithmetic that overflows is undefined, so that call has no outcome here.
-/

namespace OpenCam.Windows.Video

open Octets

section Types

inductive AVPixelFormat where
  | rgb24
  | bgr24
  | rgba
  | bgra
  | argb
  | abgr
  | rgb0
  | bgr0
  | other (code : Int)
deriving DecidableEq, Repr

structure AVFrame where
  width : Int
  height : Int
  format : AVPixelFormat
  data : List Bytes
  linesize : List Int
deriving DecidableEq, Repr

/-- Where a frame is drawn in its container: the image lies inside, and without padding it
is all of it. -/
structure TargetDimensions where
  width : Nat
  height : Nat
  containerWidth : Nat
  containerHeight : Nat
  xOffset : Nat
  yOffset : Nat
  hasPadding : Bool
  across : xOffset + width ≤ containerWidth
  down : yOffset + height ≤ containerHeight
  filled : hasPadding = false → width = containerWidth ∧ height = containerHeight

/-- What `sws_getContext` was asked for. -/
structure SwsContext where
  srcWidth : Int
  srcHeight : Int
  srcFormat : AVPixelFormat
  dstWidth : Nat
  dstHeight : Nat
  dstFormat : AVPixelFormat
deriving DecidableEq, Repr

/-- What a scaler is built on: the geometry of the subclass, `av_get_bits_per_pixel` for a
format that is described, and the byte of the converted image at a row and an offset. -/
structure Platform where
  calculateTargetDimensions : Int → Int → TargetDimensions
  bitsPerPixel : AVPixelFormat → Option Nat
  convert : SwsContext → AVFrame → Nat → Nat → UInt8

structure FrameScaler where
  format : AVPixelFormat
  swsCtx : Option SwsContext
  buffer : Bytes
  cachedTargetDims : TargetDimensions
  lastSrcWidth : Int
  lastSrcHeight : Int
  lastSrcFormat : AVPixelFormat

/-- A call of `Process`, and how libswscale answers it: whether a context is made, the result
of `sws_scale`, and what a scale that fails leaves in the image. -/
structure Call where
  frame : Option AVFrame
  contextMade : Bool
  scaled : Int
  leftover : Nat → Nat → UInt8

/-- The bytes that `Process` points to, with the size it hands back. -/
structure Picture where
  width : Nat
  height : Nat
  bytes : Bytes
deriving DecidableEq, Repr

end Types

section Processing

def AV_INPUT_BUFFER_PADDING_SIZE : Nat := 64

/-- The value of an `int` expression, where it does not overflow. -/
def int (value : Nat) : Option Nat := if value < 2 ^ 31 then some value else none

variable (p : Platform)

def getBytesPerPixel : AVPixelFormat → Nat
  | .rgb24 | .bgr24 => 3
  | .rgba | .bgra | .argb | .abgr | .rgb0 | .bgr0 => 4
  | .other code =>
      match p.bitsPerPixel (.other code) with
      | some bits => bits / 8
      | none => 4

/-- The size of the buffer for a container, with its rows rounded up to 32 bytes. -/
def neededSize (dims : TargetDimensions) (bpp : Nat) : Option Nat := do
  let row ← int (dims.containerWidth * bpp)
  let rounded ← int (row + 31)
  let bytes ← int (dims.containerHeight * (rounded / 32 * 32))
  int (bytes + AV_INPUT_BUFFER_PADDING_SIZE)

/-- `dstStride`, and where the image starts. -/
def destination (dims : TargetDimensions) (bpp : Nat) : Option (Nat × Nat) := do
  let dstStride ← int (dims.containerWidth * bpp)
  let rows ← int (dims.yOffset * dstStride)
  let columns ← int (dims.xOffset * bpp)
  return (dstStride, rows + columns)

/-- A scaler as its constructor leaves it; the constructor does not set the cached values. -/
def construct (format : AVPixelFormat) (cachedTargetDims : TargetDimensions)
    (lastSrcWidth lastSrcHeight : Int) (lastSrcFormat : AVPixelFormat) : FrameScaler :=
  ⟨format, none, [], cachedTargetDims, lastSrcWidth, lastSrcHeight, lastSrcFormat⟩

def contextFor (format : AVPixelFormat) (frame : AVFrame) : SwsContext :=
  let dims := p.calculateTargetDimensions frame.width frame.height
  ⟨frame.width, frame.height, frame.format, dims.width, dims.height, format⟩

/-- The buffer is grown and cleared where it is too small, and cleared where there is padding. -/
def prepareBuffer (buffer : Bytes) (size : Nat) (hasPadding : Bool) : Bytes :=
  let buffer := if buffer.length < size then List.replicate size 0 else buffer
  if hasPadding then List.replicate buffer.length 0 else buffer

def prepareContext (scaler : FrameScaler) (frame : AVFrame) (contextMade : Bool) :
    Option (FrameScaler × Bool) :=
  if scaler.swsCtx ≠ none ∧ frame.width = scaler.lastSrcWidth ∧
      frame.height = scaler.lastSrcHeight ∧ frame.format = scaler.lastSrcFormat then
    some (scaler, true)
  else
    let dims := p.calculateTargetDimensions frame.width frame.height
    if contextMade then do
      let size ← neededSize dims (getBytesPerPixel p scaler.format)
      return ({ scaler with
        cachedTargetDims := dims
        swsCtx := some (contextFor p scaler.format frame)
        buffer := prepareBuffer scaler.buffer size dims.hasPadding
        lastSrcWidth := frame.width
        lastSrcHeight := frame.height
        lastSrcFormat := frame.format }, true)
    else some ({ scaler with cachedTargetDims := dims, swsCtx := none }, false)

/-- `sws_scale` into the buffer of a prepared scaler. -/
def scale (scaler : FrameScaler) (frame : AVFrame) (call : Call) :
    Option (FrameScaler × Option Picture) :=
  match scaler.swsCtx with
  | none => none
  | some ctx => do
      let dims := scaler.cachedTargetDims
      let bpp := getBytesPerPixel p scaler.format
      let (dstStride, start) ← destination dims bpp
      let image := if call.scaled ≤ 0 then call.leftover else p.convert ctx frame
      let buffer := Write.applyAll scaler.buffer
        (Write.rows start dstStride (dims.width * bpp) dims.height image)
      return ({ scaler with buffer := buffer },
        if call.scaled ≤ 0 then none else some ⟨dims.containerWidth, dims.containerHeight, buffer⟩)

/-- `Process`: a null pointer is `none`. -/
def process (scaler : FrameScaler) (call : Call) : Option (FrameScaler × Option Picture) :=
  match call.frame with
  | none => some (scaler, none)
  | some frame =>
      if frame.width ≤ 0 ∨ frame.height ≤ 0 then some (scaler, none)
      else do
        let (scaler, prepared) ← prepareContext p scaler frame call.contextMade
        if prepared then scale p scaler frame call else return (scaler, none)

/-- The scaler after a sequence of calls. -/
def processAll (scaler : FrameScaler) : List Call → Option FrameScaler
  | [] => some scaler
  | call :: calls => do
      let (scaler, _) ← process p scaler call
      processAll scaler calls

/-- A scaler that keeps the size of its frames. -/
def oneToOneDimensions (width height : Int) : TargetDimensions where
  width := width.toNat
  height := height.toNat
  containerWidth := width.toNat
  containerHeight := height.toNat
  xOffset := 0
  yOffset := 0
  hasPadding := false
  across := (Nat.zero_add _).le
  down := (Nat.zero_add _).le
  filled := fun _ => ⟨rfl, rfl⟩

end Processing

section Geometry

variable {dims : TargetDimensions} {bpp size : Nat}

theorem int_eq_some {value result : Nat} :
    int value = some result ↔ value < 2 ^ 31 ∧ value = result := by
  unfold int
  split
  · next hfits => rw [Option.some.injEq, and_iff_right hfits]
  · next hover => simp only [hover, false_and, reduceCtorEq]

/-- A size that is computed covers the container. -/
theorem neededSize_covers (h : neededSize dims bpp = some size) :
    dims.containerHeight * (dims.containerWidth * bpp) ≤ size ∧ size < 2 ^ 31 ∧
      dims.containerWidth * bpp < 2 ^ 31 := by
  simp only [neededSize, Option.bind_eq_bind, Option.bind_eq_some_iff, int_eq_some] at h
  obtain ⟨row, ⟨hrow, rfl⟩, rounded, ⟨_, rfl⟩, bytes, ⟨_, rfl⟩, hsize, rfl⟩ := h
  have hround : dims.containerWidth * bpp ≤ (dims.containerWidth * bpp + 31) / 32 * 32 := by omega
  have hrows := Nat.mul_le_mul_left dims.containerHeight hround
  refine ⟨?_, hsize, hrow⟩
  exact hrows.trans (Nat.le_add_right _ _)

/-- The image is as wide as it may be, and ends before the container does. -/
theorem image_across (dims : TargetDimensions) (bpp : Nat) :
    dims.xOffset * bpp + dims.width * bpp ≤ dims.containerWidth * bpp := by
  rw [← Nat.add_mul]
  exact Nat.mul_le_mul_right _ dims.across

theorem image_down (dims : TargetDimensions) (stride : Nat) :
    (dims.yOffset + dims.height) * stride ≤ dims.containerHeight * stride :=
  Nat.mul_le_mul_right _ dims.down

theorem destination_eq (h : neededSize dims bpp = some size) :
    destination dims bpp = some (dims.containerWidth * bpp,
      dims.yOffset * (dims.containerWidth * bpp) + dims.xOffset * bpp) := by
  obtain ⟨hcovers, hsize, hrow⟩ := neededSize_covers h
  have hacross := image_across dims bpp
  have hdown := image_down dims (dims.containerWidth * bpp)
  rw [Nat.add_mul] at hdown
  have hrows : dims.yOffset * (dims.containerWidth * bpp) < 2 ^ 31 := by omega
  have hcolumns : dims.xOffset * bpp < 2 ^ 31 := by omega
  simp only [destination, int, if_pos hrow, if_pos hrows, if_pos hcolumns, Option.bind_eq_bind,
    Option.bind_some, Option.pure_def]

/-- The bytes of the image at a line of the container. -/
def TargetDimensions.Image (dims : TargetDimensions) (bpp line column : Nat) : Prop :=
  (dims.yOffset ≤ line ∧ line < dims.yOffset + dims.height) ∧
    dims.xOffset * bpp ≤ column ∧ column < dims.xOffset * bpp + dims.width * bpp

instance (line column : Nat) : Decidable (dims.Image bpp line column) :=
  inferInstanceAs (Decidable ((_ ∧ _) ∧ _ ∧ _))

/-- Without padding there is nothing beside the image. -/
theorem image_filled (h : dims.hasPadding = false) {line column : Nat}
    (hline : line < dims.containerHeight) (hcolumn : column < dims.containerWidth * bpp) :
    dims.Image bpp line column := by
  obtain ⟨hwidth, hheight⟩ := dims.filled h
  have hx : dims.xOffset = 0 := by
    have hacross := dims.across
    omega
  have hy : dims.yOffset = 0 := by
    have hdown := dims.down
    omega
  unfold TargetDimensions.Image
  rw [hx, hy, hwidth, hheight, Nat.zero_mul]
  omega

/-- The rows that `sws_scale` writes. -/
def imageRows (dims : TargetDimensions) (bpp : Nat) (image : Nat → Nat → UInt8) : List Write :=
  Write.rows (dims.yOffset * (dims.containerWidth * bpp) + dims.xOffset * bpp)
    (dims.containerWidth * bpp) (dims.width * bpp) dims.height image

theorem imageRows_fit (h : neededSize dims bpp = some size) (image : Nat → Nat → UInt8) :
    ∀ write ∈ imageRows dims bpp image, write.Fits size :=
  Write.rows_fit image (image_across dims bpp)
    ((image_down dims _).trans (neededSize_covers h).1)

/-- Drawing puts the image at its place and leaves the rest of the container. -/
theorem draw_at_place {buffer : Bytes} (h : neededSize dims bpp = some size)
    (hbuffer : size ≤ buffer.length) (image : Nat → Nat → UInt8) {line column : Nat}
    (hcolumn : column < dims.containerWidth * bpp) :
    (Write.applyAll buffer (imageRows dims bpp image)).getD
        (line * (dims.containerWidth * bpp) + column) 0 =
      if dims.Image bpp line column then image (line - dims.yOffset) (column - dims.xOffset * bpp)
      else buffer.getD (line * (dims.containerWidth * bpp) + column) 0 :=
  Write.applyAll_rows (image_across dims bpp) hcolumn
    ((image_down dims _).trans ((neededSize_covers h).1.trans hbuffer))

end Geometry

section Caching

variable {p : Platform} {scaler after : FrameScaler} {frame : AVFrame} {call : Call}

/-- The scaler is set up for frames of this size and format: what it has cached was computed
for them, and beside the image its container is zero. -/
structure Prepared (p : Platform) (scaler : FrameScaler) (frame : AVFrame) : Prop where
  width : scaler.lastSrcWidth = frame.width
  height : scaler.lastSrcHeight = frame.height
  format : scaler.lastSrcFormat = frame.format
  ctx : scaler.swsCtx = some (contextFor p scaler.format frame)
  dims : scaler.cachedTargetDims = p.calculateTargetDimensions frame.width frame.height
  size : ∃ size, neededSize scaler.cachedTargetDims (getBytesPerPixel p scaler.format) = some size ∧
    size ≤ scaler.buffer.length
  clear : ∀ line column, line < scaler.cachedTargetDims.containerHeight →
    column < scaler.cachedTargetDims.containerWidth * getBytesPerPixel p scaler.format →
    ¬ scaler.cachedTargetDims.Image (getBytesPerPixel p scaler.format) line column →
    scaler.buffer.getD
      (line * (scaler.cachedTargetDims.containerWidth * getBytesPerPixel p scaler.format) + column) 0 = 0

/-- A context is kept with what belongs to it. A context that was not made leaves the geometry
of its frame behind, but no context either. -/
def Cached (p : Platform) (scaler : FrameScaler) : Prop :=
  scaler.swsCtx ≠ none → ∃ frame, Prepared p scaler frame

/-- Only the size and the format of the frame count. -/
theorem Prepared.again {other : AVFrame} (h : Prepared p scaler other)
    (hwidth : frame.width = scaler.lastSrcWidth) (hheight : frame.height = scaler.lastSrcHeight)
    (hformat : frame.format = scaler.lastSrcFormat) : Prepared p scaler frame := by
  have hsame : frame.width = other.width := hwidth.trans h.width
  have hsame' : frame.height = other.height := hheight.trans h.height
  have hsame'' : frame.format = other.format := hformat.trans h.format
  refine ⟨hwidth.symm, hheight.symm, hformat.symm, ?_, ?_, h.size, h.clear⟩
  · rw [h.ctx, contextFor, contextFor, hsame, hsame', hsame'']
  · rw [h.dims, hsame, hsame']

theorem prepareBuffer_length (buffer : Bytes) (size : Nat) (hasPadding : Bool) :
    size ≤ (prepareBuffer buffer size hasPadding).length := by
  have hgrown : size ≤ (if buffer.length < size then List.replicate size 0 else buffer).length := by
    split
    · rw [List.length_replicate]
    · next hlarge => exact Nat.le_of_not_lt hlarge
  unfold prepareBuffer
  dsimp only
  split
  · rw [List.length_replicate]
    exact hgrown
  · exact hgrown

theorem prepareBuffer_padding (buffer : Bytes) (size index : Nat) :
    (prepareBuffer buffer size true).getD index 0 = 0 := by
  rw [prepareBuffer, if_pos rfl]
  exact getD_zeros _ _

theorem prepareContext_spec {contextMade prepared : Bool} (h : Cached p scaler)
    (hrun : prepareContext p scaler frame contextMade = some (after, prepared)) :
    Cached p after ∧ after.format = scaler.format ∧ (prepared = true → Prepared p after frame) := by
  unfold prepareContext at hrun
  split at hrun
  · next hsame =>
      obtain ⟨hctx, hwidth, hheight, hformat⟩ := hsame
      cases hrun
      obtain ⟨other, hother⟩ := h hctx
      exact ⟨h, rfl, fun _ => hother.again hwidth hheight hformat⟩
  · dsimp only at hrun
    split at hrun
    · simp only [Option.bind_eq_bind, Option.bind_eq_some_iff, Option.pure_def] at hrun
      obtain ⟨size, hsize, hrun⟩ := hrun
      obtain ⟨hafter, _⟩ := Prod.mk.inj (Option.some.inj hrun)
      have hprepared : Prepared p after frame := by
        rw [← hafter]
        refine ⟨rfl, rfl, rfl, rfl, rfl, ⟨size, hsize, prepareBuffer_length _ _ _⟩, ?_⟩
        intro line column hline hcolumn houtside
        cases hpadding : (p.calculateTargetDimensions frame.width frame.height).hasPadding with
        | true => exact prepareBuffer_padding _ _ _
        | false => exact absurd (image_filled hpadding hline hcolumn) houtside
      exact ⟨fun _ => ⟨frame, hprepared⟩, by rw [← hafter], fun _ => hprepared⟩
    · cases hrun
      exact ⟨fun hctx => absurd rfl hctx, rfl, fun hprepared => by cases hprepared⟩

/-- A picture shows a frame: the converted image at its place, and zeros beside it. -/
structure Picture.Shows (p : Platform) (format : AVPixelFormat) (frame : AVFrame)
    (picture : Picture) : Prop where
  width : picture.width = (p.calculateTargetDimensions frame.width frame.height).containerWidth
  height : picture.height = (p.calculateTargetDimensions frame.width frame.height).containerHeight
  length : picture.height * (picture.width * getBytesPerPixel p format) ≤ picture.bytes.length
  bytes : ∀ line column, line < picture.height → column < picture.width * getBytesPerPixel p format →
    picture.bytes.getD (line * (picture.width * getBytesPerPixel p format) + column) 0 =
      let dims := p.calculateTargetDimensions frame.width frame.height
      if dims.Image (getBytesPerPixel p format) line column then
        p.convert (contextFor p format frame) frame (line - dims.yOffset)
          (column - dims.xOffset * getBytesPerPixel p format)
      else 0

/-- What `sws_scale` draws. -/
def drawn (p : Platform) (scaler : FrameScaler) (frame : AVFrame) (call : Call) : Bytes :=
  Write.applyAll scaler.buffer (imageRows scaler.cachedTargetDims (getBytesPerPixel p scaler.format)
    (if call.scaled ≤ 0 then call.leftover else p.convert (contextFor p scaler.format frame) frame))

theorem scale_eq (h : Prepared p scaler frame) (call : Call) :
    scale p scaler frame call = some ({ scaler with buffer := drawn p scaler frame call },
      if call.scaled ≤ 0 then none
      else some ⟨scaler.cachedTargetDims.containerWidth, scaler.cachedTargetDims.containerHeight,
        drawn p scaler frame call⟩) := by
  obtain ⟨size, hsize, hlength⟩ := h.size
  unfold scale
  rw [h.ctx]
  simp only [destination_eq hsize, Option.bind_eq_bind, Option.bind_some, Option.pure_def]
  rfl

theorem drawn_length (h : Prepared p scaler frame) (call : Call) :
    (drawn p scaler frame call).length = scaler.buffer.length := by
  obtain ⟨size, hsize, hlength⟩ := h.size
  apply Write.applyAll_length
  intro write hmem
  exact (imageRows_fit hsize _ write hmem).trans hlength

/-- A scale, successful or not, keeps to the image. -/
theorem Prepared.drawn (h : Prepared p scaler frame) (call : Call) :
    Prepared p { scaler with buffer := drawn p scaler frame call } frame := by
  obtain ⟨size, hsize, hlength⟩ := h.size
  refine ⟨h.width, h.height, h.format, h.ctx, h.dims, ⟨size, hsize, ?_⟩, ?_⟩
  · rw [drawn_length h call]
    exact hlength
  · intro line column hline hcolumn houtside
    have hplace := @draw_at_place _ _ _ _ hsize hlength
      (if call.scaled ≤ 0 then call.leftover else p.convert (contextFor p scaler.format frame) frame)
      line column hcolumn
    rw [if_neg houtside] at hplace
    exact hplace.trans (h.clear line column hline hcolumn houtside)

theorem drawn_shows (h : Prepared p scaler frame) (hscaled : 0 < call.scaled) :
    Picture.Shows p scaler.format frame ⟨scaler.cachedTargetDims.containerWidth,
      scaler.cachedTargetDims.containerHeight, Video.drawn p scaler frame call⟩ := by
  obtain ⟨size, hsize, hlength⟩ := h.size
  constructor
  · rw [h.dims]
  · rw [h.dims]
  · rw [drawn_length h call]
    exact (neededSize_covers hsize).1.trans hlength
  · intro line column hline hcolumn
    have hplace := @draw_at_place _ _ _ _ hsize hlength
      (p.convert (contextFor p scaler.format frame) frame) line column hcolumn
    rw [Video.drawn, if_neg (by omega), hplace, ← h.dims]
    dsimp only
    split
    · rfl
    · next houtside => exact h.clear line column hline hcolumn houtside

/-- What a call does to a scaler whose cache is in order. -/
theorem process_spec {result : Option Picture} (h : Cached p scaler)
    (hrun : process p scaler call = some (after, result)) :
    Cached p after ∧ after.format = scaler.format ∧ ∀ picture, result = some picture →
      ∃ frame, call.frame = some frame ∧ picture.Shows p scaler.format frame := by
  unfold process at hrun
  split at hrun
  · cases hrun
    exact ⟨h, rfl, fun picture hpicture => by cases hpicture⟩
  · next frame hframe =>
      split at hrun
      · cases hrun
        exact ⟨h, rfl, fun picture hpicture => by cases hpicture⟩
      · simp only [Option.bind_eq_bind, Option.bind_eq_some_iff] at hrun
        obtain ⟨⟨ready, prepared⟩, hready, hrun⟩ := hrun
        obtain ⟨hcached, hformat, hprepared⟩ := prepareContext_spec h hready
        dsimp only at hrun
        split at hrun
        · next htrue =>
            have hscaler := hprepared htrue
            rw [scale_eq hscaler call] at hrun
            obtain ⟨hafter, hresult⟩ := Prod.mk.inj (Option.some.inj hrun)
            refine ⟨fun _ => ⟨frame, ?_⟩, ?_, ?_⟩
            · rw [← hafter]
              exact hscaler.drawn call
            · rw [← hafter]
              exact hformat
            · intro picture hpicture
              rw [← hresult] at hpicture
              split at hpicture
              · cases hpicture
              · next hscaled =>
                  cases hpicture
                  rw [← hformat]
                  exact ⟨frame, hframe, drawn_shows hscaler (by omega)⟩
        · cases hrun
          exact ⟨hcached, hformat, fun picture hpicture => by cases hpicture⟩

/-- The cache is in order after every sequence of calls. -/
theorem processAll_cached {calls : List Call} (h : Cached p scaler)
    (hrun : processAll p scaler calls = some after) :
    Cached p after ∧ after.format = scaler.format := by
  induction calls generalizing scaler with
  | nil =>
      cases hrun
      exact ⟨h, rfl⟩
  | cons call calls ih =>
      simp only [processAll, Option.bind_eq_bind, Option.bind_eq_some_iff] at hrun
      obtain ⟨⟨next, result⟩, hcall, hrun⟩ := hrun
      obtain ⟨hnext, hformat, _⟩ := process_spec h hcall
      obtain ⟨hafter, hsame⟩ := ih hnext hrun
      exact ⟨hafter, hsame.trans hformat⟩

theorem construct_cached (p : Platform) (format : AVPixelFormat) (dims : TargetDimensions)
    (width height : Int) (lastFormat : AVPixelFormat) :
    Cached p (construct format dims width height lastFormat) :=
  fun hctx => absurd rfl hctx

end Caching

section Transparency

variable {p : Platform} {scaler after : FrameScaler} {frame : AVFrame} {call : Call}

/-- The bytes of a picture in its container. -/
def Picture.area (picture : Picture) (bpp : Nat) : Bytes :=
  picture.bytes.take (picture.height * (picture.width * bpp))

/-- Two pictures that show a frame are the same in its container. -/
theorem Picture.Shows.area_eq {format : AVPixelFormat} {picture other : Picture}
    (h : picture.Shows p format frame) (h' : other.Shows p format frame) :
    other.width = picture.width ∧ other.height = picture.height ∧
      other.area (getBytesPerPixel p format) = picture.area (getBytesPerPixel p format) := by
  have hwidth : other.width = picture.width := h'.width.trans h.width.symm
  have hheight : other.height = picture.height := h'.height.trans h.height.symm
  have hlength := h.length
  have hlength' := h'.length
  rw [hwidth, hheight] at hlength'
  refine ⟨hwidth, hheight, ?_⟩
  unfold Picture.area
  rw [hwidth, hheight]
  generalize hbpp : getBytesPerPixel p format = bpp at *
  apply List.ext_getElem
  · rw [List.length_take_of_le hlength', List.length_take_of_le hlength]
  · intro index hindex _
    rw [List.length_take_of_le hlength'] at hindex
    -- An index of the area is a column of one of its lines.
    have hstride : 0 < picture.width * bpp := by
      rcases Nat.eq_zero_or_pos (picture.width * bpp) with hzero | hpos
      · rw [hzero, Nat.mul_zero] at hindex
        omega
      · exact hpos
    have hline : index / (picture.width * bpp) < picture.height :=
      Nat.div_lt_of_lt_mul (by rwa [Nat.mul_comm] at hindex)
    have hcolumn := Nat.mod_lt index hstride
    have hplace : index / (picture.width * bpp) * (picture.width * bpp) +
        index % (picture.width * bpp) = index := Nat.div_add_mod' _ _
    have hbyte := h.bytes (index / (picture.width * bpp)) (index % (picture.width * bpp)) hline
      (by rwa [hbpp])
    have hbyte' := h'.bytes (index / (picture.width * bpp)) (index % (picture.width * bpp))
      (by rwa [hheight]) (by rwa [hbpp, hwidth])
    rw [hbpp, hplace] at hbyte
    rw [hbpp, hwidth, hplace] at hbyte'
    have hsame := hbyte'.trans hbyte.symm
    rw [List.getD_eq_getElem?_getD, List.getD_eq_getElem?_getD, List.getElem?_eq_getElem (by omega),
      List.getElem?_eq_getElem (by omega)] at hsame
    rw [List.getElem_take, List.getElem_take]
    exact hsame

/-- A picture that is handed out had its container measured. -/
theorem process_measured {picture : Picture} (h : Cached p scaler)
    (hrun : process p scaler call = some (after, some picture)) :
    ∃ frame size, call.frame = some frame ∧ ¬ (frame.width ≤ 0 ∨ frame.height ≤ 0) ∧
      ¬ call.scaled ≤ 0 ∧ neededSize (p.calculateTargetDimensions frame.width frame.height)
        (getBytesPerPixel p scaler.format) = some size := by
  unfold process at hrun
  split at hrun
  · cases hrun
  · next frame hframe =>
      split at hrun
      · cases hrun
      · next hvalid =>
          simp only [Option.bind_eq_bind, Option.bind_eq_some_iff] at hrun
          obtain ⟨⟨ready, prepared⟩, hready, hrun⟩ := hrun
          obtain ⟨_, hformat, hprepared⟩ := prepareContext_spec h hready
          dsimp only at hrun
          split at hrun
          · next htrue =>
              have hscaler := hprepared htrue
              rw [scale_eq hscaler call] at hrun
              obtain ⟨_, hresult⟩ := Prod.mk.inj (Option.some.inj hrun)
              obtain ⟨size, hsize, _⟩ := hscaler.size
              rw [hscaler.dims, hformat] at hsize
              refine ⟨frame, size, hframe, hvalid, ?_, hsize⟩
              intro hfailed
              rw [if_pos hfailed] at hresult
              cases hresult
          · cases hrun

/-- A scaler without a context shows any frame whose container can be measured. -/
theorem process_fresh {size : Nat} (hctx : scaler.swsCtx = none) (hframe : call.frame = some frame)
    (hvalid : ¬ (frame.width ≤ 0 ∨ frame.height ≤ 0)) (hscaled : ¬ call.scaled ≤ 0)
    (hmade : call.contextMade = true)
    (hsize : neededSize (p.calculateTargetDimensions frame.width frame.height)
      (getBytesPerPixel p scaler.format) = some size) :
    ∃ fresh alone, process p scaler call = some (fresh, some alone) ∧
      alone.Shows p scaler.format frame := by
  have hcached : Cached p scaler := fun hsome => absurd hctx hsome
  have hready : ∃ ready, prepareContext p scaler frame call.contextMade = some (ready, true) := by
    unfold prepareContext
    rw [if_neg (fun hsame => hsame.1 hctx), if_pos hmade, hsize]
    exact ⟨_, rfl⟩
  obtain ⟨ready, hready⟩ := hready
  obtain ⟨_, hformat, hprepared⟩ := prepareContext_spec hcached hready
  have hprepared := hprepared rfl
  have hshows := drawn_shows hprepared (Int.lt_of_not_ge hscaled)
  rw [hformat] at hshows
  refine ⟨{ ready with buffer := drawn p ready frame call }, _, ?_, hshows⟩
  · unfold process
    rw [hframe]
    dsimp only
    rw [if_neg hvalid, hready]
    change scale p ready frame call = _
    rw [scale_eq hprepared call, if_neg hscaled]

/-- A call has no outcome only where the size of a container overflows. -/
theorem process_undefined (h : Cached p scaler) (hrun : process p scaler call = none) :
    ∃ frame, call.frame = some frame ∧
      neededSize (p.calculateTargetDimensions frame.width frame.height)
        (getBytesPerPixel p scaler.format) = none := by
  unfold process at hrun
  split at hrun
  · cases hrun
  · next frame hframe =>
      split at hrun
      · cases hrun
      · refine ⟨frame, hframe, ?_⟩
        cases hready : prepareContext p scaler frame call.contextMade with
        | none =>
            unfold prepareContext at hready
            split at hready
            · cases hready
            · dsimp only at hready
              split at hready
              · cases hsize : neededSize (p.calculateTargetDimensions frame.width frame.height)
                    (getBytesPerPixel p scaler.format) with
                | none => rfl
                | some size =>
                    rw [hsize] at hready
                    cases hready
              · cases hready
        | some result =>
            obtain ⟨ready, prepared⟩ := result
            obtain ⟨_, _, hprepared⟩ := prepareContext_spec h hready
            rw [hready] at hrun
            change (if prepared = true then scale p ready frame call else some (ready, none)) = none
              at hrun
            split at hrun
            · next htrue =>
                rw [scale_eq (hprepared htrue) call] at hrun
                cases hrun
            · cases hrun

/-- The cache is transparent: after any sequence of calls, what a call hands out is the frame
in its container, the same as a new scaler hands out for it alone. Whatever `sws_scale` writes
is inside the buffer, and a call is undefined only where the size of a container overflows. -/
theorem process_transparent (p : Platform) (format : AVPixelFormat) (dims : TargetDimensions)
    (width height : Int) (lastFormat : AVPixelFormat) {earlier : List Call}
    (run : processAll p (construct format dims width height lastFormat) earlier = some scaler)
    (call : Call) :
    (∀ after picture, process p scaler call = some (after, some picture) →
      (∃ frame, call.frame = some frame ∧ picture.Shows p format frame) ∧
      ∀ dims width height lastFormat, ∃ fresh alone,
        process p (construct format dims width height lastFormat)
          { call with contextMade := true } = some (fresh, some alone) ∧
        alone.width = picture.width ∧ alone.height = picture.height ∧
        alone.area (getBytesPerPixel p format) = picture.area (getBytesPerPixel p format)) ∧
    (∀ frame ready, prepareContext p scaler frame call.contextMade = some (ready, true) →
      ∃ dstStride start,
        destination ready.cachedTargetDims (getBytesPerPixel p format) = some (dstStride, start) ∧
        ∀ image, ∀ write ∈ Write.rows start dstStride
          (ready.cachedTargetDims.width * getBytesPerPixel p format) ready.cachedTargetDims.height image,
          write.Fits ready.buffer.length) ∧
    (process p scaler call = none → ∃ frame, call.frame = some frame ∧
      neededSize (p.calculateTargetDimensions frame.width frame.height)
        (getBytesPerPixel p format) = none) := by
  obtain ⟨hcached, hformat⟩ :=
    processAll_cached (construct_cached p format dims width height lastFormat) run
  have hformat : scaler.format = format := hformat
  refine ⟨fun after picture hpicture => ?_, fun frame ready hready => ?_, fun hundefined => ?_⟩
  · obtain ⟨_, _, hshows⟩ := process_spec hcached hpicture
    obtain ⟨frame, hframe, hshows⟩ := hshows picture rfl
    rw [hformat] at hshows
    refine ⟨⟨frame, hframe, hshows⟩, fun dims width height lastFormat => ?_⟩
    obtain ⟨frame', size, hframe', hvalid, hscaled, hsize⟩ := process_measured hcached hpicture
    rw [hframe] at hframe'
    cases hframe'
    rw [hformat] at hsize
    obtain ⟨fresh, alone, hfresh, halone⟩ := @process_fresh p
      (construct format dims width height lastFormat) frame { call with contextMade := true } size
      rfl hframe hvalid hscaled rfl hsize
    exact ⟨fresh, alone, hfresh, hshows.area_eq halone⟩
  · obtain ⟨_, hsame, hprepared⟩ := prepareContext_spec hcached hready
    obtain ⟨size, hsize, hlength⟩ := (hprepared rfl).size
    rw [hsame, hformat] at hsize
    refine ⟨_, _, destination_eq hsize, fun image write hmem => ?_⟩
    exact (imageRows_fit hsize image write hmem).trans hlength
  · rw [← hformat]
    exact process_undefined hcached hundefined

/-- Copies the pixels of a frame of 24 bits into a container of its size. -/
def copying : Platform where
  calculateTargetDimensions := oneToOneDimensions
  bitsPerPixel := fun _ => none
  convert := fun _ frame row column =>
    (frame.data.getD 0 []).getD (row * (frame.linesize.getD 0 0).toNat + column) 0

def pixels (width : Int) (contextMade : Bool) : Call where
  frame := some ⟨width, 1, .bgr24, [[1, 2, 3, 4, 5, 6]], [3 * width]⟩
  contextMade := contextMade
  scaled := 1
  leftover := fun _ _ => 0

/-- Two pixels were shown, and then no context was made for one. -/
def withoutContext : FrameScaler where
  format := .bgr24
  swsCtx := none
  buffer := [1, 2, 3, 4, 5, 6] ++ List.replicate 90 0
  cachedTargetDims := oneToOneDimensions 1 1
  lastSrcWidth := 2
  lastSrcHeight := 1
  lastSrcFormat := .bgr24

theorem withoutContext_reached :
    processAll copying (construct .bgr24 (oneToOneDimensions 0 0) 0 0 .rgb0)
      [pixels 2 true, pixels 1 false] = some withoutContext := rfl

theorem process_transparent_copying :
    ∃ after picture, process copying withoutContext (pixels 2 true) = some (after, some picture) ∧
      picture.bytes.take 6 = [1, 2, 3, 4, 5, 6] ∧
      ∃ frame, (pixels 2 true).frame = some frame ∧ picture.Shows copying .bgr24 frame :=
  ⟨_, ⟨2, 1, [1, 2, 3, 4, 5, 6] ++ List.replicate 90 0⟩, rfl, rfl,
    ((process_transparent copying .bgr24 (oneToOneDimensions 0 0) 0 0 .rgb0 withoutContext_reached
      (pixels 2 true)).1 _ _ rfl).1⟩

/-- The container of a picture that FFmpeg accepts is measured without an overflow. -/
theorem oneToOneDimensions_measured {width height : Int} {bpp : Nat} (hbpp : bpp ≤ 4)
    (hpicture : (8 * width.toNat + 1024) * (height.toNat + 128) < 2 ^ 31) :
    ∃ size, neededSize (oneToOneDimensions width height) bpp = some size := by
  generalize hw : width.toNat = w at hpicture
  generalize hh : height.toNat = h at hpicture
  have hrow : w * bpp ≤ 4 * w := by
    rw [Nat.mul_comm 4 w]
    exact Nat.mul_le_mul_left w hbpp
  have hexpand : (8 * w + 1024) * (h + 128) = 8 * (w * h) + 1024 * w + 1024 * h + 131072 := by ring
  have hstride : (w * bpp + 31) / 32 * 32 ≤ 4 * w + 31 := by omega
  have hbytes : h * ((w * bpp + 31) / 32 * 32) ≤ 4 * (w * h) + 31 * h := by
    calc h * ((w * bpp + 31) / 32 * 32) ≤ h * (4 * w + 31) := Nat.mul_le_mul_left h hstride
      _ = 4 * (w * h) + 31 * h := by ring
  have hfirst : w * bpp < 2 ^ 31 := by omega
  have hsecond : w * bpp + 31 < 2 ^ 31 := by omega
  have hthird : h * ((w * bpp + 31) / 32 * 32) < 2 ^ 31 := by omega
  have hlast : h * ((w * bpp + 31) / 32 * 32) + AV_INPUT_BUFFER_PADDING_SIZE < 2 ^ 31 := by
    unfold AV_INPUT_BUFFER_PADDING_SIZE
    omega
  refine ⟨h * ((w * bpp + 31) / 32 * 32) + AV_INPUT_BUFFER_PADDING_SIZE, ?_⟩
  simp only [neededSize, oneToOneDimensions, hw, hh, int, if_pos hfirst, if_pos hsecond,
    if_pos hthird, if_pos hlast, Option.bind_eq_bind, Option.bind_some]

end Transparency

end OpenCam.Windows.Video
