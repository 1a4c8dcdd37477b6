import OpenCam.Control.Operations
import OpenCam.Interaction.Machine

/-!
`media_pipeline.cpp`: the worker thread as a program of FFmpeg, V4L2 and shared
memory operations, and the object that a controller starts, stops and polls
while its workers run. A step is one atomic access or one call of a library.
-/

namespace OpenCam.Linux.MediaPipeline

open Octets Interaction Control

section Formats

def OUTPUT_WIDTH : Nat := 640
def OUTPUT_HEIGHT : Nat := 480
def OUTPUT_FPS : Nat := 30

def V4L2_CAP_VIDEO_OUTPUT : Nat := 0x2
def V4L2_CAP_DEVICE_CAPS : Nat := 0x80000000
def V4L2_PIX_FMT_YUV420 : Nat := 0x32315559
def V4L2_FIELD_NONE : Nat := 1
def V4L2_COLORSPACE_SMPTE170M : Nat := 1

/-- `AVERROR(EAGAIN)`. -/
def AVERROR_EAGAIN : Int := -11
def AVERROR_EOF : Int := -541478725

structure V4L2Capability where
  capabilities : Nat
  deviceCaps : Nat
deriving DecidableEq, Repr, Inhabited

/-- `fmt.pix` of a `v4l2_format` of type `V4L2_BUF_TYPE_VIDEO_OUTPUT`. -/
structure V4L2PixFormat where
  width : Nat
  height : Nat
  pixelformat : Nat
  field : Nat
  bytesperline : Nat
  sizeimage : Nat
  colorspace : Nat
deriving DecidableEq, Repr, Inhabited

/-- What one `ioctl` answers. -/
inductive IoctlResult (α : Type) where
  | done (value : α)
  | interrupted
  | failed
deriving DecidableEq, Repr, Inhabited

/-- What one `write` answers. -/
inductive WriteResult where
  | written (count : Nat)
  | interrupted
  | wouldBlock
  | failed
deriving DecidableEq, Repr, Inhabited

inductive AVMediaType where
  | unknown
  | video
  | audio
  | data
  | subtitle
  | attachment
deriving DecidableEq, Repr, Inhabited

structure AVPacket where
  streamIndex : Int
  data : Bytes
deriving DecidableEq, Repr, Inhabited

/-- One plane of a picture and the distance between its rows. -/
structure Plane where
  data : Bytes
  linesize : Nat
deriving DecidableEq, Repr, Inhabited

structure AVFrame where
  width : Int
  height : Int
  format : Int
  planes : List Plane
deriving DecidableEq, Repr, Inhabited

/-- The converted frame: 640x480 in `AV_PIX_FMT_YUV420P`. -/
structure ConvertedFrame where
  y : Plane
  u : Plane
  v : Plane
deriving DecidableEq, Repr, Inhabited

/-- What the worker gives back. -/
inductive Resource where
  | network
  | format
  | decoderContext
  | videoFd
  | decodedFrame
  | convertedFrame
  | packet
  | scaler
  | packetData
  | decodedFrameData
deriving DecidableEq, Repr

end Formats

section Operations

inductive WorkerOp where
  | loadStopRequested
  | storeState (state : MediaPipelineState)
  | storeErrorMessage (message : String)
  | release (resource : Resource)
  | avformatNetworkInit
  | avformatAllocContext
  | avformatOpenInput (url : Bytes)
  | avformatFindStreamInfo
  | avcodecFindDecoder (stream : Nat)
  | avcodecAllocContext3
  | avcodecParametersToContext (stream : Nat)
  | avcodecOpen2
  | openDevice (videoDevice : Bytes)
  | queryCapability
  | setFormat (format : V4L2PixFormat)
  | setParameters (numerator denominator : Nat)
  | avFrameAlloc
  | avPacketAlloc
  | avFrameGetBuffer
  | avReadFrame
  | avcodecSendPacket (packet : AVPacket)
  | avcodecReceiveFrame
  | swsGetCachedContext (width height format : Int)
  | avFrameMakeWritable
  | swsScale (frame : AVFrame)
  | write (bytes : Bytes)
  | poll (timeoutMs : Int)
  | avStrerror (code : Int)
deriving DecidableEq

namespace WorkerOp

/-- What an operation answers: a null pointer or a failed system call is
`false`, an FFmpeg result is its code, beside what the call has filled in. -/
@[reducible] def Res : WorkerOp → Type
  | loadStopRequested => Bool
  | storeState _ => Unit
  | storeErrorMessage _ => Unit
  | release _ => Unit
  | avformatNetworkInit => Int
  | avformatAllocContext => Bool
  | avformatOpenInput _ => Int × Bool
  | avformatFindStreamInfo => Int × List AVMediaType
  | avcodecFindDecoder _ => Bool
  | avcodecAllocContext3 => Bool
  | avcodecParametersToContext _ => Int
  | avcodecOpen2 => Int
  | openDevice _ => Bool
  | queryCapability => IoctlResult V4L2Capability
  | setFormat _ => IoctlResult V4L2PixFormat
  | setParameters _ _ => IoctlResult Unit
  | avFrameAlloc => Bool
  | avPacketAlloc => Bool
  | avFrameGetBuffer => Int
  | avReadFrame => Int × AVPacket
  | avcodecSendPacket _ => Int
  | avcodecReceiveFrame => Int × AVFrame
  | swsGetCachedContext _ _ _ => Bool
  | avFrameMakeWritable => Int
  | swsScale _ => Int × ConvertedFrame
  | write _ => WriteResult
  | poll _ => PollResult
  | avStrerror _ => Option String

end WorkerOp

/-- A program of the worker thread. -/
abbrev Worker (α : Type) : Type := Prog WorkerOp WorkerOp.Res α

abbrev request (op : WorkerOp) : Worker op.Res := Prog.perform op

def releaseAll : List Resource → Worker Unit
  | [] => pure ()
  | resource :: resources => do
      request (.release resource)
      releaseAll resources

def setFailure (message : String) : Worker Unit := do
  request (.storeErrorMessage message)
  request (.storeState .failed)

def ffmpegError (code : Int) : Worker String := do
  match ← request (.avStrerror code) with
  | none => return "unknown FFmpeg error"
  | some text => return text

end Operations

section Output

/-- What `configureV4L2Output` hands back. -/
structure OutputLayout where
  packedFrameSize : Nat
  yStride : Nat
  chromaStride : Nat
deriving DecidableEq, Repr

/-- Repeat an `ioctl` while it is interrupted. -/
def ioctlRetry {α : Type} (ioctl : Worker (IoctlResult α)) : Nat → Worker (Option α)
  | 0 => .unfinished
  | passes + 1 => do
      match ← ioctl with
      | .done value => return some value
      | .interrupted => ioctlRetry ioctl passes
      | .failed => return none

/-- The format the worker asks for. -/
def requestedFormat : V4L2PixFormat where
  width := OUTPUT_WIDTH
  height := OUTPUT_HEIGHT
  pixelformat := V4L2_PIX_FMT_YUV420
  field := V4L2_FIELD_NONE
  bytesperline := OUTPUT_WIDTH
  sizeimage := OUTPUT_WIDTH * OUTPUT_HEIGHT * 3 / 2
  colorspace := V4L2_COLORSPACE_SMPTE170M

/-- The capabilities of the opened node, where the driver tells them apart. -/
def V4L2Capability.caps (capability : V4L2Capability) : Nat :=
  if capability.capabilities &&& V4L2_CAP_DEVICE_CAPS ≠ 0 then capability.deviceCaps
  else capability.capabilities

def V4L2PixFormat.yStride (format : V4L2PixFormat) : Nat :=
  if format.bytesperline < OUTPUT_WIDTH then OUTPUT_WIDTH else format.bytesperline

/-- The strides and the frame size that follow from a negotiated format. -/
def outputLayout (format : V4L2PixFormat) : Except String OutputLayout :=
  let yStride := format.yStride
  let chromaStride := yStride / 2
  let packedFrameSize := yStride * OUTPUT_HEIGHT + 2 * chromaStride * (OUTPUT_HEIGHT / 2)
  if format.width ≠ OUTPUT_WIDTH ∨ format.height ≠ OUTPUT_HEIGHT ∨
      format.pixelformat ≠ V4L2_PIX_FMT_YUV420 then
    .error "OpenCam V4L2 device negotiated an incompatible format"
  else if yStride % 2 ≠ 0 then
    .error "OpenCam V4L2 device returned an unsupported row stride"
  else if format.sizeimage ≠ 0 ∧ format.sizeimage < packedFrameSize then
    .error "OpenCam V4L2 device reported an undersized frame buffer"
  else .ok ⟨packedFrameSize, yStride, chromaStride⟩

def configureV4L2Output (passes : Nat) : Worker (Except String OutputLayout) := do
  match ← ioctlRetry (request .queryCapability) passes with
  | none => return .error "V4L2 capability query failed"
  | some capability =>
      if capability.caps &&& V4L2_CAP_VIDEO_OUTPUT = 0 then
        return .error "OpenCam V4L2 device does not support video output"
      else
        match ← ioctlRetry (request (.setFormat requestedFormat)) passes with
        | none => return .error "OpenCam V4L2 device rejected YUV420 640x480 format"
        | some format =>
            match outputLayout format with
            | .error error => return .error error
            | .ok layout => do
                -- The frame rate is optional: the answer is ignored.
                let _ ← ioctlRetry (request (.setParameters 1 OUTPUT_FPS)) passes
                return .ok layout

end Output

section Frames

/-- `memcpy` to an offset of a buffer. -/
def copyInto (buffer : Bytes) (offset : Nat) (source : Bytes) : Bytes :=
  buffer.take offset ++ source ++ buffer.drop (offset + source.length)

def Plane.row (plane : Plane) (row width : Nat) : Bytes :=
  (plane.data.drop (row * plane.linesize)).take width

/-- Copy a row of a plane to where the plane of this stride starts. -/
def copyRow (plane : Plane) (start stride width row : Nat) (buffer : Bytes) : Bytes :=
  copyInto buffer (start + row * stride) (plane.row row width)

/-- Clear what a row leaves of its stride. -/
def padRow (start stride width row : Nat) (buffer : Bytes) : Bytes :=
  if stride > width then
    copyInto buffer (start + row * stride + width) (List.replicate (stride - width) 0)
  else buffer

/-- The frame as `writePackedYuv420` lays it out before it writes. -/
def packFrame (frame : ConvertedFrame) (layout : OutputLayout) : Bytes :=
  let u := layout.yStride * OUTPUT_HEIGHT
  let v := u + layout.chromaStride * (OUTPUT_HEIGHT / 2)
  let luma := (List.range OUTPUT_HEIGHT).foldl
    (fun packed row =>
      padRow 0 layout.yStride OUTPUT_WIDTH row
        (copyRow frame.y 0 layout.yStride OUTPUT_WIDTH row packed))
    (List.replicate layout.packedFrameSize 0)
  (List.range (OUTPUT_HEIGHT / 2)).foldl
    (fun packed row =>
      padRow v layout.chromaStride (OUTPUT_WIDTH / 2) row
        (padRow u layout.chromaStride (OUTPUT_WIDTH / 2) row
          (copyRow frame.v v layout.chromaStride (OUTPUT_WIDTH / 2) row
            (copyRow frame.u u layout.chromaStride (OUTPUT_WIDTH / 2) row packed))))
    luma

/-- Write a packed frame. The answer comes with the error text, which stays what
it was where the loop ends because a stop is requested. -/
def writePacked (packed : Bytes) (error : String) : Nat → Worker (Bool × String)
  | 0 => .unfinished
  | passes + 1 => do
      if ← request .loadStopRequested then
        return (false, error)
      else
        match ← request (.write packed) with
        | .written count =>
            if count = packed.length then return (true, error)
            else return (false, "OpenCam V4L2 frame write failed or was incomplete")
        | .interrupted => writePacked packed error passes
        | .wouldBlock =>
            match ← request (.poll 100) with
            | .failed => return (false, "OpenCam V4L2 output polling failed")
            | _ => writePacked packed error passes
        | .failed => return (false, "OpenCam V4L2 frame write failed or was incomplete")

def writePackedYuv420 (frame : ConvertedFrame) (layout : OutputLayout) (error : String)
    (passes : Nat) : Worker (Bool × String) :=
  writePacked (packFrame frame layout) error passes

end Frames

section Decoding

variable (layout : OutputLayout) (passes : Nat)

/-- Give up on a decoded frame. -/
def discardFrame (error : String) : Worker (Option Bool × String) := do
  request (.release .decodedFrameData)
  return (some false, error)

/-- Convert and write one decoded frame; `none` to go on with the next. -/
def processFrame (frame : AVFrame) (processingError : String) :
    Worker (Option Bool × String) := do
  if !(← request (.swsGetCachedContext frame.width frame.height frame.format)) then
    discardFrame "Could not prepare converted video frame"
  else if (← request .avFrameMakeWritable) < 0 then
    discardFrame "Could not prepare converted video frame"
  else
    let (scaledRows, converted) ← request (.swsScale frame)
    if scaledRows ≠ OUTPUT_HEIGHT then
      discardFrame "Video frame conversion returned an incomplete frame"
    else
      let (written, error) ← writePackedYuv420 converted layout processingError passes
      request (.release .decodedFrameData)
      if written then return (none, error)
      else return (some (← request .loadStopRequested), error)

/-- `drainDecodedFrames`, with `processingError` as it leaves it. -/
def drainDecodedFrames (processingError : String) : Nat → Worker (Bool × String)
  | 0 => .unfinished
  | fuel + 1 => do
      let (receiveResult, frame) ← request .avcodecReceiveFrame
      if receiveResult = AVERROR_EAGAIN ∨ receiveResult = AVERROR_EOF then
        return (true, processingError)
      else if receiveResult < 0 then
        return (false, "Video decoder failed")
      else
        match ← processFrame layout passes frame processingError with
        | (some drained, error) => return (drained, error)
        | (none, error) => drainDecodedFrames error fuel

/-- Offer a packet to the decoder until it no longer asks to be drained. -/
def sendPacket (packet : AVPacket) (processingError : String) :
    Nat → Worker (Int × Bool × String)
  | 0 => .unfinished
  | fuel + 1 => do
      let result ← request (.avcodecSendPacket packet)
      if result = AVERROR_EAGAIN then
        let (drained, error) ← drainDecodedFrames layout passes processingError passes
        if drained then sendPacket packet error fuel
        else return (result, false, error)
      else return (result, true, processingError)

/-- A packet of the video stream. -/
def processPacket (packet : AVPacket) (processingError : String) : Worker (Bool × String) := do
  let (result, successful, error) ← sendPacket layout passes packet processingError passes
  if successful then
    if result < 0 then return (false, "Video decoder rejected an input packet")
    else drainDecodedFrames layout passes error passes
  else return (false, error)

/-- Packets of other streams are skipped. -/
def takePacket (videoStreamIndex : Nat) (packet : AVPacket) (processingError : String) :
    Worker (Bool × String) :=
  if packet.streamIndex = videoStreamIndex then
    processPacket layout passes packet processingError
  else pure (true, processingError)

/-- The loop over the packets of the source. -/
def readPackets (videoStreamIndex : Nat) (processingError : String) :
    Nat → Worker (Bool × String)
  | 0 => .unfinished
  | fuel + 1 => do
      if ← request .loadStopRequested then
        return (true, processingError)
      else
        let (result, packet) ← request .avReadFrame
        if result < 0 then
          if ← request .loadStopRequested then return (true, processingError)
          else if result = AVERROR_EOF then return (false, "RTSP source ended")
          else return (false, "RTSP read failed (" ++ (← ffmpegError result) ++ ")")
        else
          let (successful, error) ←
            takePacket layout passes videoStreamIndex packet processingError
          request (.release .packetData)
          if successful then readPackets videoStreamIndex error fuel
          else return (false, error)

end Decoding

section Run

/-- Fail, and give back what the worker holds. -/
def abandon (message : String) (resources : List Resource) : Worker Unit := do
  setFailure message
  releaseAll resources

/-- Fail with an FFmpeg code unless a stop is requested. -/
def failUnlessStopped (message : String) (code : Int) : Worker Unit := do
  if !(← request .loadStopRequested) then
    setFailure (message ++ " (" ++ (← ffmpegError code) ++ ")")
  else return ()

def abandonUnlessStopped (message : String) (code : Int) (resources : List Resource) :
    Worker Unit := do
  failUnlessStopped message code
  releaseAll resources

/-- The decoder of a stream is found, allocated, set up and opened. -/
def openDecoder (stream : Nat) : Worker Bool := do
  if !(← request (.avcodecFindDecoder stream)) then return false
  else if !(← request .avcodecAllocContext3) then return false
  else if (← request (.avcodecParametersToContext stream)) < 0 then return false
  else return decide (0 ≤ (← request .avcodecOpen2))

def finish (successful : Bool) (processingError : String) : Worker Unit := do
  if !(← request .loadStopRequested) && !successful then
    setFailure (if processingError.isEmpty then "Media pipeline failed" else processingError)
  else if !(← request .loadStopRequested) then
    setFailure "Media pipeline stopped unexpectedly"
  else return ()

/-- Behind the first frame buffers: convert until the stream or the session
ends. -/
def process (videoStreamIndex : Nat) (layout : OutputLayout) (passes : Nat) : Worker Unit := do
  request (.storeState .running)
  let (successful, processingError) ← readPackets layout passes videoStreamIndex "" passes
  releaseAll [.scaler, .packet, .decodedFrame, .convertedFrame, .videoFd, .decoderContext,
    .format, .network]
  finish successful processingError

/-- The frame buffers, in front of the loop. -/
def prepareFrames (videoStreamIndex : Nat) (layout : OutputLayout) (passes : Nat) :
    Worker Unit := do
  let decodedFrame ← request .avFrameAlloc
  let convertedFrame ← request .avFrameAlloc
  let packet ← request .avPacketAlloc
  let held : List Resource :=
    [.packet, .decodedFrame, .convertedFrame, .videoFd, .decoderContext, .format, .network]
  if !decodedFrame || !convertedFrame || !packet then
    abandon "Could not allocate video frame buffers" held
  else if (← request .avFrameGetBuffer) < 0 then
    abandon "Could not allocate converted video frame" held
  else process videoStreamIndex layout passes

/-- The decoder and the V4L2 device. -/
def openOutput (videoDevice : Bytes) (videoStreamIndex : Nat) (passes : Nat) : Worker Unit := do
  if !(← openDecoder videoStreamIndex) then
    abandon "Could not initialize the RTSP video decoder" [.decoderContext, .format, .network]
  else if !(← request (.openDevice videoDevice)) then
    abandon "Could not open the OpenCam V4L2 output device" [.decoderContext, .format, .network]
  else
    match ← configureV4L2Output passes with
    | .error v4l2Error => abandon v4l2Error [.videoFd, .decoderContext, .format, .network]
    | .ok layout => prepareFrames videoStreamIndex layout passes

/-- `MediaPipeline::run`. -/
def run (authenticatedRtspUrl videoDevice : Bytes) (passes : Nat) : Worker Unit := do
  if (← request .avformatNetworkInit) < 0 then
    setFailure "FFmpeg network initialization failed"
  else if !(← request .avformatAllocContext) then
    abandon "Could not allocate RTSP input context" [.network]
  else
    let (opened, format) ← request (.avformatOpenInput authenticatedRtspUrl)
    if opened < 0 then
      abandonUnlessStopped "Could not open authenticated RTSP source" opened
        (if format then [.format, .network] else [.network])
    else
      let (found, streams) ← request .avformatFindStreamInfo
      if found < 0 then
        abandonUnlessStopped "Could not read RTSP stream metadata" found [.format, .network]
      else
        match streams.findIdx? (· = .video) with
        | none => abandon "RTSP source contains no video stream" [.format, .network]
        | some videoStreamIndex => openOutput videoDevice videoStreamIndex passes

end Run

section Controller

/-- Where the controlling thread stands: outside of `start` and `stop`, or
before the next access of one of them. -/
inductive Controller where
  | idle
  -- `start`, behind its checks
  | clearStopRequested (url device : Bytes)
  | clearErrorMessage (url device : Bytes)
  | storeStarting (url device : Bytes)
  | createWorker (url device : Bytes)
  -- `stop`, behind the store to `stopRequested_`
  | joinWorker
  | loadState
  | storeStopped
deriving DecidableEq, Repr

/-- A `start` that has passed its checks. -/
def Controller.Starting : Controller → Prop
  | .clearStopRequested _ _ | .clearErrorMessage _ _ | .storeStarting _ _ | .createWorker _ _ => True
  | _ => False

/-- The calls that have returned. A `stop` is listed with the state it leaves. -/
inductive Call where
  | start (accepted : Bool)
  | stop (left : MediaPipelineState)
  | state (answer : MediaPipelineState)
  | errorMessage (answer : String)
deriving DecidableEq, Repr

/-- `MediaPipeline` with its threads. All the workers ever created are listed,
`worker_` is the one that can be joined, and the calls are listed newest first. -/
structure Pipeline where
  stopRequested : Bool := false
  state : MediaPipelineState := .stopped
  errorMessage : String := ""
  workers : List (Worker Unit) := []
  worker : Option Nat := none
  controller : Controller := .idle
  calls : List Call := []

inductive PipelineAction where
  | start (url device : Bytes)
  | stop
  | state
  | errorMessage
  /-- The next access of the call the controller is in. -/
  | proceed
  /-- The next operation of a worker. The environment answers it, unless it is an
  access to the pipeline. -/
  | work (index : Nat) (environment : (op : WorkerOp) → op.Res)

namespace Pipeline

variable (pipeline : Pipeline)

def returned (call : Call) : Pipeline :=
  { pipeline with controller := .idle, calls := call :: pipeline.calls }

def start (url device : Bytes) : Pipeline :=
  if pipeline.worker.isSome || url.isEmpty || device.isEmpty then pipeline.returned (.start false)
  else { pipeline with controller := .clearStopRequested url device }

/-- The join returns when the worker has. -/
def join : Option Pipeline :=
  match pipeline.worker with
  | none => some { pipeline with controller := .loadState }
  | some index =>
      match pipeline.workers[index]? with
      | some (.ret ()) => some { pipeline with worker := none, controller := .loadState }
      | _ => none

def proceed (passes : Nat) : Controller → Option Pipeline
  | .idle => none
  | .clearStopRequested url device =>
      some { pipeline with stopRequested := false, controller := .clearErrorMessage url device }
  | .clearErrorMessage url device =>
      some { pipeline with errorMessage := "", controller := .storeStarting url device }
  | .storeStarting url device =>
      some { pipeline with state := .starting, controller := .createWorker url device }
  | .createWorker url device =>
      -- `std::thread` is taken to find the resources of a thread.
      let created : Pipeline :=
        { pipeline with
          workers := pipeline.workers ++ [run url device passes]
          worker := some pipeline.workers.length }
      some (created.returned (.start true))
  | .joinWorker => pipeline.join
  | .loadState =>
      if pipeline.state = .failed then some (pipeline.returned (.stop pipeline.state))
      else some { pipeline with controller := .storeStopped }
  | .storeStopped =>
      let stopped : Pipeline := { pipeline with state := .stopped }
      some (stopped.returned (.stop .stopped))

/-- An operation of a worker: its answer, and what it changes. -/
def perform (environment : (op : WorkerOp) → op.Res) : (op : WorkerOp) → op.Res × Pipeline
  | .loadStopRequested => (pipeline.stopRequested, pipeline)
  | .storeState state => ((), { pipeline with state := state })
  | .storeErrorMessage message => ((), { pipeline with errorMessage := message })
  | op => (environment op, pipeline)

def work (index : Nat) (environment : (op : WorkerOp) → op.Res) : Option Pipeline :=
  match pipeline.workers[index]? with
  | some (.call op next) =>
      let performed := pipeline.perform environment op
      some { performed.2 with workers := pipeline.workers.set index (next performed.1) }
  | _ => none

def step (passes : Nat) : PipelineAction → Option Pipeline
  | .start url device =>
      if pipeline.controller = .idle then some (pipeline.start url device) else none
  | .stop =>
      if pipeline.controller = .idle then
        some { pipeline with stopRequested := true, controller := .joinWorker }
      else none
  | .state =>
      if pipeline.controller = .idle then some (pipeline.returned (.state pipeline.state)) else none
  | .errorMessage =>
      if pipeline.controller = .idle then
        some (pipeline.returned (.errorMessage pipeline.errorMessage))
      else none
  | .proceed => pipeline.proceed passes pipeline.controller
  | .work index environment => pipeline.work index environment

end Pipeline

/-- A pipeline object from some state on. -/
def pipelineFrom (passes : Nat) (pipeline : Pipeline) : Machine Pipeline PipelineAction :=
  .ofStep pipeline fun pipeline action => pipeline.step passes action

/-- A pipeline object from its construction on. -/
def pipelineMachine (passes : Nat) : Machine Pipeline PipelineAction := pipelineFrom passes {}

end Controller

end OpenCam.Linux.MediaPipeline
