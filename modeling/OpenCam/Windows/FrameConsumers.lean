import OpenCam.Interaction.Machine
import OpenCam.Windows.FrameScaler

/-!
What becomes of a decoded frame: the frame callback of `application.cpp`, which the worker of the
receiver calls for one frame after another, with `canvas.cpp`, `directshowsource.cpp` and
`snapshotmanager.cpp`. Beside the worker there are the window's thread, which renders what was
posted to it and asks for snapshots, and the network's, which clears the canvas. Every load and
store of `isRendering` and `snapshotRequested` is a step; what is painted on the screen is left
out. A call of a scaler that is undefined has no next state.
-/

namespace OpenCam.Windows

open Octets Interaction Video

section Model

/-- How libswscale answers a call of `Process`. -/
structure Scaling where
  contextMade : Bool
  scaled : Int
  leftover : Nat → Nat → UInt8

def Scaling.call (scaling : Scaling) (frame : AVFrame) : Call :=
  ⟨some frame, scaling.contextMade, scaling.scaled, scaling.leftover⟩

/-- The frame callback with its frame, at its next step. -/
inductive FrameCallback where
  | absent
  -- `Canvas::ProcessRawFrameAsync`
  | checkRendering (frame : AVFrame)
  | storeRendering (frame : AVFrame)
  | scalePreview (frame : AVFrame)
  | abandonPreview (frame : AVFrame)
  | callAfter (frame : AVFrame) (picture : Picture)
  -- `DirectShowSource::SendRawFrame`
  | sendRawFrame (frame : AVFrame)
  -- `SnapshotManager::ProcessFrame`
  | loadRequest (frame : AVFrame)
  | exchangeRequest (frame : AVFrame)
  | scaleSnapshot (frame : AVFrame)

/-- The window's thread in the function that was posted to it. -/
inductive Painter where
  | idle
  | render (picture : Picture)
  | storeRendering

inductive SnapshotEvent where
  | requested
  | taken (frame : AVFrame)

/-- The flags, scalers and posted functions of the three consumers. The fields from `rendered` on
are not kept by the program: what was rendered, sent and saved, how often `Clear` was called, the
requests for snapshots with the frames that they were taken from, and the frames of the callbacks
that have returned. -/
structure Consumers where
  callback : FrameCallback
  painter : Painter
  isRendering : Bool
  posted : List Picture
  preview : FrameScaler
  camera : FrameScaler
  snapshotRequested : Bool
  snapshot : FrameScaler
  rendered : List Picture
  sent : List Picture
  saved : List Picture
  clears : Nat
  snapshots : List SnapshotEvent
  frames : List AVFrame

/-- What a consumer copies: `width * height * 3` bytes. -/
def Video.Picture.copied (picture : Picture) : Picture :=
  ⟨picture.width, picture.height, picture.area 3⟩

/-- `Process`, with the check that every consumer makes of its result. -/
def consume (p : Platform) (scaler : FrameScaler) (frame : AVFrame) (scaling : Scaling) :
    Option (FrameScaler × Option Picture) := do
  let (scaler, result) ← process p scaler (scaling.call frame)
  return (scaler, (result.filter fun picture => 0 < picture.width && 0 < picture.height).map
    Picture.copied)

/-- One step of a thread. What may go either way in a step of the worker: whether the memory of a
preview is allocated, and whether the relaxed load of `snapshotRequested` sees the last store. -/
inductive ConsumersAction where
  | deliver (frame : AVFrame)
  | worker (scaling : Scaling) (succeeds : Bool)
  | painter (pixelData : Bool)
  | requestSnapshot
  | clear

namespace Consumers

variable (preview camera snapshot : Platform) (consumers : Consumers)

def created (preview camera snapshot : FrameScaler) : Consumers where
  callback := .absent
  painter := .idle
  isRendering := false
  posted := []
  preview := preview
  camera := camera
  snapshotRequested := false
  snapshot := snapshot
  rendered := []
  sent := []
  saved := []
  clears := 0
  snapshots := []
  frames := []

/-- The callback returns. -/
def returned (frame : AVFrame) : Consumers :=
  { consumers with callback := .absent, frames := consumers.frames ++ [frame] }

def workerStep (scaling : Scaling) (succeeds : Bool) : Option Consumers :=
  match consumers.callback with
  | .absent => none
  | .checkRendering frame => some { consumers with
      callback := if consumers.isRendering then .sendRawFrame frame else .storeRendering frame }
  | .storeRendering frame =>
      some { consumers with isRendering := true, callback := .scalePreview frame }
  | .scalePreview frame => do
      let (scaler, picture) ← consume preview consumers.preview frame scaling
      return { consumers with
        preview := scaler
        callback := (picture.filter fun _ => succeeds).elim (.abandonPreview frame)
          (.callAfter frame) }
  | .abandonPreview frame =>
      some { consumers with isRendering := false, callback := .sendRawFrame frame }
  | .callAfter frame picture => some { consumers with
      posted := consumers.posted ++ [picture]
      callback := .sendRawFrame frame }
  | .sendRawFrame frame => do
      let (scaler, picture) ← consume camera consumers.camera frame scaling
      return { consumers with
        camera := scaler
        sent := consumers.sent ++ picture.toList
        callback := .loadRequest frame }
  | .loadRequest frame =>
      some (if consumers.snapshotRequested && succeeds then
        { consumers with callback := .exchangeRequest frame }
      else consumers.returned frame)
  | .exchangeRequest frame =>
      let exchanged := { consumers with snapshotRequested := false }
      some (if consumers.snapshotRequested then
        { exchanged with
          callback := .scaleSnapshot frame
          snapshots := consumers.snapshots ++ [.taken frame] }
      else exchanged.returned frame)
  | .scaleSnapshot frame => do
      let (scaler, picture) ← consume snapshot consumers.snapshot frame scaling
      let scaled := { consumers with
        snapshot := scaler
        saved := consumers.saved ++ picture.toList }
      return scaled.returned frame

/-- `Render` leaves the picture out where there is no access to the pixels of its bitmap. -/
def painterStep (pixelData : Bool) : Option Consumers :=
  match consumers.painter, consumers.posted with
  | .idle, [] => none
  | .idle, picture :: posted =>
      some { consumers with painter := .render picture, posted := posted }
  | .render picture, _ =>
      some { consumers with
        rendered := consumers.rendered ++ if pixelData then [picture] else []
        painter := .storeRendering }
  | .storeRendering, _ => some { consumers with isRendering := false, painter := .idle }

/-- The button for a snapshot is handled on the window's thread. -/
def step : ConsumersAction → Option Consumers
  | .deliver frame =>
      match consumers.callback with
      | .absent => some { consumers with callback := .checkRendering frame }
      | _ => none
  | .worker scaling succeeds => consumers.workerStep preview camera snapshot scaling succeeds
  | .painter pixelData => consumers.painterStep pixelData
  | .requestSnapshot =>
      match consumers.painter with
      | .idle => some { consumers with
          snapshotRequested := true
          snapshots := consumers.snapshots ++ [.requested] }
      | _ => none
  | .clear => some { consumers with isRendering := false, clears := consumers.clears + 1 }

end Consumers

/-- A scaler as it is constructed, with whatever its cached values are. -/
def Constructed (format : AVPixelFormat) (scaler : FrameScaler) : Prop :=
  ∃ dims width height lastFormat, scaler = construct format dims width height lastFormat

def consumersMachine (preview camera snapshot : Platform) : Machine Consumers ConsumersAction where
  initial := fun consumers => ∃ first second third, Constructed .bgr24 first ∧
    Constructed .bgr24 second ∧ Constructed .rgb24 third ∧
    consumers = .created first second third
  step := fun consumers action next => consumers.step preview camera snapshot action = some next

end Model

section Pictures

variable {p : Platform} {format : AVPixelFormat} {scaler after : FrameScaler} {frame : AVFrame}
  {scaling : Scaling} {frames : List AVFrame} {pictures : List Picture}

/-- Pictures that show some of the frames, each one frame and in their order. -/
def Shown (p : Platform) (format : AVPixelFormat) (frames : List AVFrame)
    (pictures : List Picture) : Prop :=
  List.SublistForall₂ (fun picture frame => picture.Shows p format frame) pictures frames

theorem shown_nil : Shown p format frames [] := List.SublistForall₂.nil

theorem Shown.within {more : List AVFrame} (h : Shown p format frames pictures)
    (hframes : frames.Sublist more) : Shown p format more pictures := by
  obtain ⟨chosen, hchosen, hsublist⟩ := List.sublistForall₂_iff.mp h
  exact List.sublistForall₂_iff.mpr ⟨chosen, hchosen, hsublist.trans hframes⟩

theorem Shown.later (h : Shown p format frames pictures) (more : List AVFrame) :
    Shown p format (frames ++ more) pictures :=
  h.within (List.sublist_append_left _ _)

theorem Shown.extend (h : Shown p format (frames ++ []) pictures) (frame : AVFrame) :
    Shown p format (frames ++ [frame]) pictures := by
  rw [List.append_nil] at h
  exact h.later [frame]

theorem Shown.sublist {fewer : List Picture} (h : Shown p format frames pictures)
    (hfewer : fewer.Sublist pictures) : Shown p format frames fewer := by
  induction h generalizing fewer with
  | nil =>
      rw [List.sublist_nil.mp hfewer]
      exact shown_nil
  | cons hshows _ ih =>
      cases hfewer with
      | cons _ hrest => exact .cons_right (ih hrest)
      | cons_cons _ hrest => exact .cons hshows (ih hrest)
  | cons_right _ ih => exact .cons_right (ih hfewer)

theorem Shown.add (h : Shown p format frames pictures) {result : Option Picture}
    (hresult : ∀ picture, result = some picture → picture.Shows p format frame) :
    Shown p format (frames ++ [frame]) (pictures ++ result.toList) := by
  cases result with
  | none =>
      rw [Option.toList_none, List.append_nil]
      exact h.later _
  | some picture =>
      obtain ⟨chosen, hchosen, hsublist⟩ := List.sublistForall₂_iff.mp h
      have hlast : List.Forall₂ (fun picture frame => Picture.Shows p format frame picture)
          [picture] [frame] := .cons (hresult picture rfl) .nil
      exact List.sublistForall₂_iff.mpr
        ⟨chosen ++ [frame], List.rel_append hchosen hlast, hsublist.append (.refl _)⟩

/-- The copy of a picture shows what the picture shows. -/
theorem shows_copied (hbytes : getBytesPerPixel p format = 3) {picture : Picture}
    (h : picture.Shows p format frame) : picture.copied.Shows p format frame := by
  have hlength := h.length
  rw [hbytes] at hlength
  refine ⟨h.width, h.height, ?_, fun line column hline hcolumn => ?_⟩
  · rw [hbytes]
    exact (List.length_take_of_le hlength).ge
  · have hplace := h.bytes line column hline hcolumn
    rw [hbytes] at hcolumn hplace ⊢
    have hinside : line * (picture.width * 3) + column < picture.height * (picture.width * 3) :=
      calc line * (picture.width * 3) + column
          < line * (picture.width * 3) + picture.width * 3 := Nat.add_lt_add_left hcolumn _
        _ = (line + 1) * (picture.width * 3) := (Nat.succ_mul _ _).symm
        _ ≤ picture.height * (picture.width * 3) := Nat.mul_le_mul_right _ hline
    rw [← hplace]
    change (picture.bytes.take (picture.height * (picture.width * 3))).getD
      (line * (picture.width * 3) + column) 0 = _
    rw [List.getD_eq_getElem?_getD, List.getD_eq_getElem?_getD, List.getElem?_take_of_lt hinside]

/-- A scaler of a consumer, with its cache in order. -/
structure Ready (p : Platform) (format : AVPixelFormat) (scaler : FrameScaler) : Prop where
  cached : Cached p scaler
  format : scaler.format = format

theorem ready_of_constructed (h : Constructed format scaler) : Ready p format scaler := by
  obtain ⟨dims, width, height, lastFormat, rfl⟩ := h
  exact ⟨construct_cached p format dims width height lastFormat, rfl⟩

theorem consume_spec (hbytes : getBytesPerPixel p format = 3) {result : Option Picture}
    (h : Ready p format scaler) (hrun : consume p scaler frame scaling = some (after, result)) :
    Ready p format after ∧ ∀ picture, result = some picture → picture.Shows p format frame := by
  simp only [consume, Option.bind_eq_bind, Option.bind_eq_some_iff, Option.pure_def,
    Option.some.injEq, Prod.mk.injEq] at hrun
  obtain ⟨⟨next, made⟩, hprocess, rfl, rfl⟩ := hrun
  obtain ⟨hcached, hformat, hshows⟩ := process_spec h.cached hprocess
  refine ⟨⟨hcached, hformat.trans h.format⟩, fun picture hpicture => ?_⟩
  obtain ⟨original, horiginal, rfl⟩ := Option.map_eq_some_iff.mp hpicture
  obtain ⟨hmade, _⟩ := Option.filter_eq_some_iff.mp horiginal
  obtain ⟨shown, hshown, hshows⟩ := hshows original hmade
  obtain rfl : frame = shown := Option.some.inj hshown
  rw [h.format] at hshows
  exact shows_copied hbytes hshows

end Pictures

section Delivery

/-- The frame whose preview is dealt with. -/
def FrameCallback.previewed : FrameCallback → List AVFrame
  | .callAfter frame _ | .sendRawFrame frame | .loadRequest frame | .exchangeRequest frame
  | .scaleSnapshot frame => [frame]
  | _ => []

/-- The frame that was sent to the virtual camera. -/
def FrameCallback.sentOn : FrameCallback → List AVFrame
  | .loadRequest frame | .exchangeRequest frame | .scaleSnapshot frame => [frame]
  | _ => []

/-- The frame of the callback. -/
def FrameCallback.received : FrameCallback → List AVFrame
  | .absent => []
  | .checkRendering frame | .storeRendering frame | .scalePreview frame | .abandonPreview frame
  | .callAfter frame _ | .sendRawFrame frame | .loadRequest frame | .exchangeRequest frame
  | .scaleSnapshot frame => [frame]

def FrameCallback.pictures : FrameCallback → List Picture
  | .callAfter _ picture => [picture]
  | _ => []

def Painter.pictures : Painter → List Picture
  | .render picture => [picture]
  | _ => []

namespace Consumers

def received (consumers : Consumers) : List AVFrame :=
  consumers.frames ++ consumers.callback.received

/-- The previews that are rendered and that are going to be. -/
def pictures (consumers : Consumers) : List Picture :=
  consumers.rendered ++ consumers.painter.pictures ++ consumers.posted ++
    consumers.callback.pictures

/-- The scalers are in order, and what was made of the frames shows them in their order. -/
structure Delivered (preview camera : Platform) (consumers : Consumers) : Prop where
  previewReady : Ready preview .bgr24 consumers.preview
  cameraReady : Ready camera .bgr24 consumers.camera
  previewed : Shown preview .bgr24 (consumers.frames ++ consumers.callback.previewed)
    consumers.pictures
  sent : Shown camera .bgr24 (consumers.frames ++ consumers.callback.sentOn) consumers.sent

variable {preview camera snapshot : Platform} {consumers next : Consumers}

/-- The callback returns when its frame has been previewed and sent. -/
theorem Delivered.returned (h : Delivered preview camera consumers) (frame : AVFrame)
    (hpreviewed : consumers.callback.previewed = [frame])
    (hsent : consumers.callback.sentOn = [frame]) (hpictures : consumers.callback.pictures = []) :
    Delivered preview camera (consumers.returned frame) := by
  refine ⟨h.previewReady, h.cameraReady, ?_, ?_⟩
  · have hshown := h.previewed
    rw [pictures, hpreviewed, hpictures] at hshown
    exact hshown.later []
  · have hshown := h.sent
    rw [hsent] at hshown
    exact hshown.later []

theorem delivered_worker {scaling : Scaling} {succeeds : Bool}
    (h : Delivered preview camera consumers)
    (hstep : consumers.workerStep preview camera snapshot scaling succeeds = some next) :
    Delivered preview camera next := by
  obtain ⟨callback, painter, isRendering, posted, previewScaler, cameraScaler, snapshotRequested,
    snapshotScaler, rendered, sent, saved, clears, snapshots, frames⟩ := consumers
  cases callback with
  | absent => cases hstep
  | checkRendering frame =>
      cases hstep
      cases isRendering with
      | false => exact { h with }
      | true => exact { h with previewed := h.previewed.extend frame }
  | storeRendering frame =>
      cases hstep
      exact { h with }
  | scalePreview frame =>
      obtain ⟨⟨scaler, result⟩, hconsume, hnext⟩ := Option.bind_eq_some_iff.mp hstep
      obtain ⟨hready, hshows⟩ := consume_spec rfl h.previewReady hconsume
      cases hnext
      cases result with
      | none => exact { h with previewReady := hready }
      | some picture =>
          cases succeeds with
          | false => exact { h with previewReady := hready }
          | true =>
              have hshown : Shown preview .bgr24 (frames ++ [])
                (rendered ++ painter.pictures ++ posted ++ []) := h.previewed
              rw [List.append_nil, List.append_nil] at hshown
              exact { h with previewReady := hready, previewed := hshown.add hshows }
  | abandonPreview frame =>
      cases hstep
      exact { h with previewed := h.previewed.extend frame }
  | callAfter frame picture =>
      cases hstep
      refine { h with previewed := h.previewed.sublist ?_ }
      simp [pictures, FrameCallback.pictures]
  | sendRawFrame frame =>
      obtain ⟨⟨scaler, result⟩, hconsume, hnext⟩ := Option.bind_eq_some_iff.mp hstep
      obtain ⟨hready, hshows⟩ := consume_spec rfl h.cameraReady hconsume
      cases hnext
      have hshown : Shown camera .bgr24 (frames ++ []) sent := h.sent
      rw [List.append_nil] at hshown
      exact { h with cameraReady := hready, sent := hshown.add hshows }
  | loadRequest frame =>
      have hreturned := h.returned frame rfl rfl rfl
      cases hstep
      cases snapshotRequested <;> cases succeeds
      · exact hreturned
      · exact hreturned
      · exact hreturned
      · exact { h with }
  | exchangeRequest frame =>
      have hreturned := h.returned frame rfl rfl rfl
      cases hstep
      cases snapshotRequested with
      | false => exact { hreturned with }
      | true => exact { h with }
  | scaleSnapshot frame =>
      obtain ⟨⟨scaler, result⟩, _, hnext⟩ := Option.bind_eq_some_iff.mp hstep
      have hreturned := h.returned frame rfl rfl rfl
      cases hnext
      exact { hreturned with }

theorem delivered_painter {pixelData : Bool} (h : Delivered preview camera consumers)
    (hstep : consumers.painterStep pixelData = some next) : Delivered preview camera next := by
  obtain ⟨callback, painter, isRendering, posted, previewScaler, cameraScaler, snapshotRequested,
    snapshotScaler, rendered, sent, saved, clears, snapshots, frames⟩ := consumers
  cases painter with
  | idle =>
      cases posted with
      | nil => cases hstep
      | cons picture posted =>
          cases hstep
          refine { h with previewed := h.previewed.sublist ?_ }
          simp [pictures, Painter.pictures]
  | render picture =>
      cases hstep
      refine { h with previewed := h.previewed.sublist ?_ }
      cases pixelData <;> simp [pictures, Painter.pictures]
  | storeRendering =>
      cases hstep
      exact { h with }

theorem delivered_step {action : ConsumersAction} (h : Delivered preview camera consumers)
    (hstep : consumers.step preview camera snapshot action = some next) :
    Delivered preview camera next := by
  cases action with
  | deliver frame =>
      obtain ⟨callback, painter, isRendering, posted, previewScaler, cameraScaler,
        snapshotRequested, snapshotScaler, rendered, sent, saved, clears, snapshots,
        frames⟩ := consumers
      cases callback with
      | absent =>
          cases hstep
          exact { h with }
      | _ => cases hstep
  | worker scaling succeeds => exact delivered_worker h hstep
  | painter pixelData => exact delivered_painter h hstep
  | requestSnapshot =>
      rw [step] at hstep
      split at hstep
      · cases hstep
        exact { h with }
      · cases hstep
  | clear =>
      cases hstep
      exact { h with }

end Consumers

end Delivery

section Pacing

/-- The callback has set `isRendering` and has neither posted its picture nor given up. -/
def FrameCallback.claims : FrameCallback → Nat
  | .scalePreview _ | .abandonPreview _ | .callAfter _ _ => 1
  | _ => 0

def Painter.claims : Painter → Nat
  | .idle => 0
  | _ => 1

namespace Consumers

/-- The previews that are on their way from the callback to the end of their rendering. -/
def underWay (consumers : Consumers) : Nat :=
  consumers.callback.claims + consumers.posted.length + consumers.painter.claims

/-- Only the callback sets `isRendering`; every store that clears it ends a preview, but for
those of `Clear`. -/
structure Paced (consumers : Consumers) : Prop where
  unclaimed : ∀ frame, consumers.callback = .storeRendering frame → consumers.isRendering = false
  bounded : consumers.underWay ≤ consumers.clears + consumers.isRendering.toNat
  claimed : consumers.isRendering = true → 0 < consumers.underWay

variable {preview camera snapshot : Platform} {consumers next : Consumers}

/-- A step that leaves the flag, the posted previews and their number alone. -/
theorem Paced.along (h : Paced consumers)
    (hcallback : ∀ frame, next.callback ≠ .storeRendering frame)
    (hrendering : next.isRendering = consumers.isRendering)
    (hclears : next.clears = consumers.clears) (hunderWay : next.underWay = consumers.underWay) :
    Paced next := by
  refine ⟨fun frame hat => absurd hat (hcallback frame), ?_, ?_⟩
  · rw [hrendering, hclears, hunderWay]
    exact h.bounded
  · rw [hrendering, hunderWay]
    exact h.claimed

/-- A store that clears the flag at the end of a preview. -/
theorem Paced.ended (h : Paced consumers) (hrendering : next.isRendering = false)
    (hclears : next.clears = consumers.clears)
    (hunderWay : next.underWay + 1 = consumers.underWay) : Paced next := by
  have hbounded := h.bounded
  have hflag := Bool.toNat_le consumers.isRendering
  refine ⟨fun _ _ => hrendering, ?_, fun hset => ?_⟩
  · rw [hrendering, hclears]
    omega
  · rw [hrendering] at hset
    cases hset

theorem paced_worker {scaling : Scaling} {succeeds : Bool} (h : Paced consumers)
    (hstep : consumers.workerStep preview camera snapshot scaling succeeds = some next) :
    Paced next := by
  obtain ⟨callback, painter, isRendering, posted, previewScaler, cameraScaler, snapshotRequested,
    snapshotScaler, rendered, sent, saved, clears, snapshots, frames⟩ := consumers
  cases callback with
  | absent => cases hstep
  | checkRendering frame =>
      cases hstep
      cases isRendering with
      | false => exact ⟨fun _ _ => rfl, h.bounded, h.claimed⟩
      | true => exact h.along (by rintro _ ⟨⟩) rfl rfl rfl
  | storeRendering frame =>
      cases hstep
      have hclear : isRendering = false := h.unclaimed frame rfl
      have hbounded := h.bounded
      refine ⟨by rintro _ ⟨⟩, ?_, fun _ => ?_⟩
      · simp only [underWay, FrameCallback.claims, hclear, Bool.toNat_false, Bool.toNat_true]
          at hbounded ⊢
        omega
      · simp only [underWay, FrameCallback.claims]
        omega
  | scalePreview frame =>
      obtain ⟨⟨scaler, result⟩, _, hnext⟩ := Option.bind_eq_some_iff.mp hstep
      cases hnext
      cases result with
      | none => exact h.along (by rintro _ ⟨⟩) rfl rfl rfl
      | some picture => cases succeeds <;> exact h.along (by rintro _ ⟨⟩) rfl rfl rfl
  | abandonPreview frame =>
      cases hstep
      refine h.ended rfl rfl ?_
      simp only [underWay, FrameCallback.claims]
      omega
  | callAfter frame picture =>
      cases hstep
      refine h.along (by rintro _ ⟨⟩) rfl rfl ?_
      simp only [underWay, FrameCallback.claims, List.length_append, List.length_singleton]
      omega
  | sendRawFrame frame =>
      obtain ⟨⟨scaler, result⟩, _, hnext⟩ := Option.bind_eq_some_iff.mp hstep
      cases hnext
      exact h.along (by rintro _ ⟨⟩) rfl rfl rfl
  | loadRequest frame =>
      cases hstep
      cases snapshotRequested <;> cases succeeds <;> exact h.along (by rintro _ ⟨⟩) rfl rfl rfl
  | exchangeRequest frame =>
      cases hstep
      cases snapshotRequested <;> exact h.along (by rintro _ ⟨⟩) rfl rfl rfl
  | scaleSnapshot frame =>
      obtain ⟨⟨scaler, result⟩, _, hnext⟩ := Option.bind_eq_some_iff.mp hstep
      cases hnext
      exact h.along (by rintro _ ⟨⟩) rfl rfl rfl

theorem paced_step {action : ConsumersAction} (h : Paced consumers)
    (hstep : consumers.step preview camera snapshot action = some next) : Paced next := by
  cases action with
  | worker scaling succeeds => exact paced_worker h hstep
  | deliver frame =>
      rw [step] at hstep
      split at hstep
      · next habsent =>
          cases hstep
          refine h.along (by rintro _ ⟨⟩) rfl rfl ?_
          simp [underWay, habsent, FrameCallback.claims]
      · cases hstep
  | painter pixelData =>
      obtain ⟨callback, painter, isRendering, posted, previewScaler, cameraScaler,
        snapshotRequested, snapshotScaler, rendered, sent, saved, clears, snapshots,
        frames⟩ := consumers
      cases painter with
      | idle =>
          cases posted with
          | nil => cases hstep
          | cons picture posted =>
              cases hstep
              exact ⟨h.unclaimed, h.bounded, h.claimed⟩
      | render picture =>
          cases hstep
          exact ⟨h.unclaimed, h.bounded, h.claimed⟩
      | storeRendering =>
          cases hstep
          exact h.ended rfl rfl rfl
  | requestSnapshot =>
      rw [step] at hstep
      split at hstep
      · cases hstep
        exact ⟨h.unclaimed, h.bounded, h.claimed⟩
      · cases hstep
  | clear =>
      cases hstep
      have hbounded := h.bounded
      have hflag := Bool.toNat_le consumers.isRendering
      refine ⟨fun _ _ => rfl, ?_, by rintro ⟨⟩⟩
      change consumers.underWay ≤ consumers.clears + 1 + 0
      omega

end Consumers

end Pacing

section Snapshots

/-- The frames that were taken for a snapshot. -/
def takenFrames (snapshots : List SnapshotEvent) : List AVFrame :=
  snapshots.filterMap fun
    | .requested => none
    | .taken frame => some frame

/-- The flag is set while the last request is not answered, and every frame was taken for the
request right before it. -/
structure Answered (snapshotRequested : Bool) (snapshots : List SnapshotEvent) : Prop where
  pending : snapshotRequested = true ↔ ∃ earlier, snapshots = earlier ++ [.requested]
  asked : ∀ before frame after, snapshots = before ++ .taken frame :: after →
    ∃ earlier, before = earlier ++ [.requested]

/-- What is in front of a frame that was taken, when one more event is behind. -/
theorem taken_append {snapshots before after : List SnapshotEvent} {event : SnapshotEvent}
    {frame : AVFrame} (h : snapshots ++ [event] = before ++ .taken frame :: after) :
    (∃ rest, snapshots = before ++ .taken frame :: rest) ∨
      (snapshots = before ∧ event = .taken frame) := by
  obtain rfl | ⟨rest, last, rfl⟩ := List.eq_nil_or_concat after
  · obtain ⟨hbefore, hevent⟩ := List.append_inj' h rfl
    exact .inr ⟨hbefore, (List.cons.inj hevent).1⟩
  · rw [List.concat_eq_append, ← List.cons_append, ← List.append_assoc] at h
    exact .inl ⟨rest, (List.append_inj' h rfl).1⟩

theorem answered_nil : Answered false [] := by
  refine ⟨⟨by rintro ⟨⟩, ?_⟩, ?_⟩
  · rintro ⟨earlier, hearlier⟩
    exact absurd hearlier.symm (List.append_ne_nil_of_right_ne_nil _ (List.cons_ne_nil _ _))
  · intro before frame after hsplit
    exact absurd hsplit.symm (List.append_ne_nil_of_right_ne_nil _ (List.cons_ne_nil _ _))

theorem Answered.requested {snapshotRequested : Bool} {snapshots : List SnapshotEvent}
    (h : Answered snapshotRequested snapshots) : Answered true (snapshots ++ [.requested]) := by
  refine ⟨⟨fun _ => ⟨snapshots, rfl⟩, fun _ => rfl⟩, fun before frame after hsplit => ?_⟩
  obtain ⟨rest, hrest⟩ | ⟨_, hevent⟩ := taken_append hsplit
  · exact h.asked before frame rest hrest
  · cases hevent

theorem Answered.taken {snapshots : List SnapshotEvent} (h : Answered true snapshots)
    (frame : AVFrame) : Answered false (snapshots ++ [.taken frame]) := by
  refine ⟨⟨by rintro ⟨⟩, ?_⟩, fun before other after hsplit => ?_⟩
  · rintro ⟨earlier, hearlier⟩
    cases (List.append_inj' hearlier rfl).2
  · obtain ⟨rest, hrest⟩ | ⟨rfl, _⟩ := taken_append hsplit
    · exact h.asked before other rest hrest
    · exact h.pending.mp rfl

/-- The frame that is being scaled for a snapshot. -/
def FrameCallback.scaling : FrameCallback → List AVFrame
  | .scaleSnapshot frame => [frame]
  | _ => []

namespace Consumers

/-- What was saved shows the frames that were taken, in their order. -/
structure Photographed (snapshot : Platform) (consumers : Consumers) : Prop where
  ready : Ready snapshot .rgb24 consumers.snapshot
  answered : Answered consumers.snapshotRequested consumers.snapshots
  taken : ∃ scaled, takenFrames consumers.snapshots = scaled ++ consumers.callback.scaling ∧
    scaled.Sublist consumers.frames ∧ Shown snapshot .rgb24 scaled consumers.saved

variable {preview camera snapshot : Platform} {consumers next : Consumers}

theorem Photographed.returned (h : Photographed snapshot consumers) (frame : AVFrame)
    (hscaling : consumers.callback.scaling = []) :
    Photographed snapshot (consumers.returned frame) := by
  obtain ⟨scaled, htaken, hsublist, hshown⟩ := h.taken
  rw [hscaling] at htaken
  exact ⟨h.ready, h.answered, scaled, htaken, hsublist.trans (List.sublist_append_left _ _),
    hshown⟩

theorem photographed_worker {scaling : Scaling} {succeeds : Bool}
    (h : Photographed snapshot consumers)
    (hstep : consumers.workerStep preview camera snapshot scaling succeeds = some next) :
    Photographed snapshot next := by
  obtain ⟨callback, painter, isRendering, posted, previewScaler, cameraScaler, snapshotRequested,
    snapshotScaler, rendered, sent, saved, clears, snapshots, frames⟩ := consumers
  cases callback with
  | absent => cases hstep
  | checkRendering frame =>
      cases hstep
      cases isRendering <;> exact { h with }
  | storeRendering frame =>
      cases hstep
      exact { h with }
  | scalePreview frame =>
      obtain ⟨⟨scaler, result⟩, _, hnext⟩ := Option.bind_eq_some_iff.mp hstep
      cases hnext
      cases result with
      | none => exact { h with }
      | some picture => cases succeeds <;> exact { h with }
  | abandonPreview frame =>
      cases hstep
      exact { h with }
  | callAfter frame picture =>
      cases hstep
      exact { h with }
  | sendRawFrame frame =>
      obtain ⟨⟨scaler, result⟩, _, hnext⟩ := Option.bind_eq_some_iff.mp hstep
      cases hnext
      exact { h with }
  | loadRequest frame =>
      have hreturned := h.returned frame rfl
      cases hstep
      cases snapshotRequested <;> cases succeeds
      · exact hreturned
      · exact hreturned
      · exact hreturned
      · exact { h with }
  | exchangeRequest frame =>
      have hreturned := h.returned frame rfl
      cases hstep
      cases snapshotRequested with
      | false => exact { hreturned with }
      | true =>
          obtain ⟨scaled, htaken, hsublist, hshown⟩ := h.taken
          refine ⟨h.ready, h.answered.taken frame, scaled, ?_, hsublist, hshown⟩
          change takenFrames (snapshots ++ [.taken frame]) = scaled ++ [frame]
          rw [show scaled = takenFrames snapshots from (htaken.trans (List.append_nil _)).symm]
          exact List.filterMap_append
  | scaleSnapshot frame =>
      obtain ⟨⟨scaler, result⟩, hconsume, hnext⟩ := Option.bind_eq_some_iff.mp hstep
      obtain ⟨hready, hshows⟩ := consume_spec rfl h.ready hconsume
      cases hnext
      obtain ⟨scaled, htaken, hsublist, hshown⟩ := h.taken
      exact ⟨hready, h.answered, scaled ++ [frame], htaken.trans (List.append_nil _).symm,
        hsublist.append (.refl _), hshown.add hshows⟩

theorem photographed_step {action : ConsumersAction} (h : Photographed snapshot consumers)
    (hstep : consumers.step preview camera snapshot action = some next) :
    Photographed snapshot next := by
  cases action with
  | worker scaling succeeds => exact photographed_worker h hstep
  | deliver frame =>
      rw [step] at hstep
      split at hstep
      · next habsent =>
          cases hstep
          obtain ⟨scaled, htaken, hsublist, hshown⟩ := h.taken
          rw [habsent] at htaken
          exact ⟨h.ready, h.answered, scaled, htaken, hsublist, hshown⟩
      · cases hstep
  | painter pixelData =>
      rw [step, painterStep] at hstep
      split at hstep
      · cases hstep
      · cases hstep
        exact { h with }
      · cases hstep
        exact { h with }
      · cases hstep
        exact { h with }
  | requestSnapshot =>
      rw [step] at hstep
      split at hstep
      · cases hstep
        obtain ⟨scaled, htaken, hsublist, hshown⟩ := h.taken
        refine ⟨h.ready, h.answered.requested, scaled, ?_, hsublist, hshown⟩
        rw [takenFrames, List.filterMap_append]
        exact (List.append_nil _).trans htaken
      · cases hstep
  | clear =>
      cases hstep
      exact { h with }

end Consumers

end Snapshots

section Consuming

variable {preview camera snapshot : Platform} {consumers : Consumers}

theorem FrameCallback.previewed_sublist (callback : FrameCallback) :
    callback.previewed.Sublist callback.received := by
  cases callback <;> first | exact .refl _ | exact List.nil_sublist _

theorem FrameCallback.sentOn_sublist (callback : FrameCallback) :
    callback.sentOn.Sublist callback.received := by
  cases callback <;> first | exact .refl _ | exact List.nil_sublist _

theorem FrameCallback.scaling_sublist (callback : FrameCallback) :
    callback.scaling.Sublist callback.received := by
  cases callback <;> first | exact .refl _ | exact List.nil_sublist _

theorem delivered_of_reachable
    (h : (consumersMachine preview camera snapshot).Reachable consumers) :
    consumers.Delivered preview camera := by
  have hinitial : ∀ state : Consumers, (consumersMachine preview camera snapshot).initial state →
      state.Delivered preview camera := by
    rintro _ ⟨first, second, third, hfirst, hsecond, _, rfl⟩
    exact ⟨ready_of_constructed hfirst, ready_of_constructed hsecond, shown_nil, shown_nil⟩
  exact h.invariant hinitial fun _ _ _ hdelivered hstep =>
    Consumers.delivered_step hdelivered hstep

theorem paced_of_reachable
    (h : (consumersMachine preview camera snapshot).Reachable consumers) : consumers.Paced := by
  have hinitial : ∀ state : Consumers, (consumersMachine preview camera snapshot).initial state →
      state.Paced := by
    rintro _ ⟨first, second, third, _, _, _, rfl⟩
    exact ⟨fun _ _ => rfl, Nat.zero_le _, by rintro ⟨⟩⟩
  exact h.invariant hinitial fun _ _ _ hpaced hstep => Consumers.paced_step hpaced hstep

theorem photographed_of_reachable
    (h : (consumersMachine preview camera snapshot).Reachable consumers) :
    consumers.Photographed snapshot := by
  have hinitial : ∀ state : Consumers, (consumersMachine preview camera snapshot).initial state →
      state.Photographed snapshot := by
    rintro _ ⟨first, second, third, _, _, hthird, rfl⟩
    exact ⟨ready_of_constructed hthird, answered_nil, [], rfl, .slnil, shown_nil⟩
  exact h.invariant hinitial fun _ _ _ hphotographed hstep =>
    Consumers.photographed_step hphotographed hstep

/-- Whatever the threads do, the previews and what is sent to the virtual camera show frames that
were received, each frame at most once and in their order. The previews under way are at most one
more than the calls of `Clear`, and while none is under way the canvas takes the next frame. -/
theorem previews_paced (h : (consumersMachine preview camera snapshot).Reachable consumers) :
    Shown preview .bgr24 consumers.received consumers.pictures ∧
      Shown camera .bgr24 consumers.received consumers.sent ∧
      consumers.underWay ≤ consumers.clears + consumers.isRendering.toNat ∧
      (consumers.isRendering = true → 0 < consumers.underWay) := by
  have hdelivered := delivered_of_reachable h
  have hpaced := paced_of_reachable h
  have hpreviewed := FrameCallback.previewed_sublist consumers.callback
  have hsent := FrameCallback.sentOn_sublist consumers.callback
  exact ⟨hdelivered.previewed.within ((List.Sublist.refl _).append hpreviewed),
    hdelivered.sent.within ((List.Sublist.refl _).append hsent), hpaced.bounded, hpaced.claimed⟩

/-- A frame is taken for a snapshot only for the request right before it, and the flag is set as
long as the last request waits for its frame. What is saved shows frames that were taken, and
these are frames that were received, each at most once and in their order. -/
theorem snapshots_asked (h : (consumersMachine preview camera snapshot).Reachable consumers) :
    (∀ before frame after, consumers.snapshots = before ++ .taken frame :: after →
      ∃ earlier, before = earlier ++ [.requested]) ∧
    (consumers.snapshotRequested = true ↔
      ∃ earlier, consumers.snapshots = earlier ++ [.requested]) ∧
    (takenFrames consumers.snapshots).Sublist consumers.received ∧
    Shown snapshot .rgb24 (takenFrames consumers.snapshots) consumers.saved := by
  have hphotographed := photographed_of_reachable h
  obtain ⟨scaled, htaken, hsublist, hshown⟩ := hphotographed.taken
  refine ⟨hphotographed.answered.asked, hphotographed.answered.pending, ?_, ?_⟩
  · rw [htaken]
    exact hsublist.append (FrameCallback.scaling_sublist consumers.callback)
  · rw [htaken]
    exact hshown.later _

/-- A frame of two pixels. -/
def twoPixels : AVFrame := ⟨2, 1, .bgr24, [[1, 2, 3, 4, 5, 6]], [6]⟩

def newScaler (format : AVPixelFormat) : FrameScaler :=
  construct format (oneToOneDimensions 0 0) 0 0 .rgb0

def newConsumers : Consumers := .created (newScaler .bgr24) (newScaler .bgr24) (newScaler .rgb24)

/-- Every call succeeds. -/
def willing : ConsumersAction := .worker ⟨true, 1, fun _ _ => 0⟩ true

/-- A snapshot is asked for and the canvas cleared while the first preview is posted, and so the
second is made before the first is rendered. -/
def twoFrames : List ConsumersAction :=
  .deliver twoPixels :: List.replicate 4 willing ++ [.requestSnapshot, .clear] ++
    List.replicate 4 willing ++ .deliver twoPixels :: List.replicate 4 willing

def pixelPicture : Picture := ⟨2, 1, [1, 2, 3, 4, 5, 6]⟩

theorem newConsumers_reach {final : Consumers} {actions : List ConsumersAction}
    (hrun : Machine.run (Consumers.step copying copying copying) newConsumers actions =
      some final) : (consumersMachine copying copying copying).Reachable final := by
  have hnew : ∀ format, Constructed format (newScaler format) := fun _ => ⟨_, _, _, _, rfl⟩
  exact .of_run (fun _ _ _ hstep => hstep)
    (.initial ⟨_, _, _, hnew .bgr24, hnew .bgr24, hnew .rgb24, rfl⟩) hrun

theorem previews_paced_sample : ∃ final,
    Machine.run (Consumers.step copying copying copying) newConsumers twoFrames = some final ∧
      final.posted = [pixelPicture, pixelPicture] ∧ final.clears = 1 ∧
      Shown copying .bgr24 final.received final.pictures ∧
      final.underWay ≤ final.clears + final.isRendering.toNat := by
  have hfinal : ∃ final,
      Machine.run (Consumers.step copying copying copying) newConsumers twoFrames = some final ∧
        final.posted = [pixelPicture, pixelPicture] ∧ final.clears = 1 := ⟨_, rfl, rfl, rfl⟩
  obtain ⟨final, hrun, hposted, hclears⟩ := hfinal
  have hpaced := previews_paced (newConsumers_reach hrun)
  exact ⟨final, hrun, hposted, hclears, hpaced.1, hpaced.2.2.1⟩

theorem snapshots_asked_sample : ∃ final,
    Machine.run (Consumers.step copying copying copying) newConsumers twoFrames = some final ∧
      final.snapshots = [.requested, .taken twoPixels] ∧ final.saved = [pixelPicture] ∧
      Shown copying .rgb24 (takenFrames final.snapshots) final.saved := by
  have hfinal : ∃ final,
      Machine.run (Consumers.step copying copying copying) newConsumers twoFrames = some final ∧
        final.snapshots = [.requested, .taken twoPixels] ∧ final.saved = [pixelPicture] :=
    ⟨_, rfl, rfl, rfl⟩
  obtain ⟨final, hrun, hsnapshots, hsaved⟩ := hfinal
  exact ⟨final, hrun, hsnapshots, hsaved, (snapshots_asked (newConsumers_reach hrun)).2.2.2⟩

end Consuming

end OpenCam.Windows
