import OpenCam.Android.StreamOptions

/-!
`Streamer.kt`: the commands that the receiver thread calls and the tasks they
post to the main thread. Options are objects that several tasks may hold, so
they live in a heap and `options` is a reference; renderers are known to the
GL interface by identity. What the camera and the encoder do with a command
is not modelled: the commands are recorded in order.
-/

namespace OpenCam.Android

open Jvm FilterRepository

/-- What the library answers: whether a renderer class can be instantiated,
whether the other camera opens, and whether the encoder starts. The bit rate
for a resolution is computed with floating-point numbers. -/
structure Environment where
  newInstance : FilterClass → Bool
  opensCamera : StreamOptions → Bool
  startsStream : StreamOptions → Bool
  calculateOptimalBitrate : Int → Int → Int → Int

/-- A phone on which every call succeeds. The bit rate is that of
`calculateOptimalBitrate` in integers. -/
def Environment.capable : Environment where
  newInstance := fun _ => true
  opensCamera := fun _ => true
  startsStream := fun _ => true
  calculateOptimalBitrate := fun width height fps =>
    max 512000 (min 12288000 (width * height * fps * 6144000 / 62208000))

inductive FlipAxis where
  | horizontal
  | vertical
deriving DecidableEq, Repr

/-- The calls on the camera, on its GL interface's rotation and on the bit rate
adapter, and the error reports. -/
inductive CameraCommand where
  | switchCamera
  | setStreamRotation (rotation : Int)
  | setZoom (zoom : Nat)
  | setVideoBitrateOnFly (bitrate : Int)
  | setMaxBitrate (bitrate : Int)
  | enableVideoStabilization
  | disableVideoStabilization
  | enableLantern
  | disableLantern
  | enableAutoFocus
  | disableAutoFocus
  | setVideoCodec (h265 : Bool)
  | startStream
  | stopStream
  | sendErrorReport (error : String)
deriving DecidableEq, Repr

/-- The calls that a control message leads to. A zoom factor is the bit pattern
of its `Float`. -/
inductive StreamerCall where
  | startStream (newOptions : StreamOptions)
  | switchCamera
  | setResolution (width height : Int)
  | rotate (degrees : Int)
  | applyEffectFilter (filterName : JString)
  | applyCorrectionFilter (filterName : JString) (value : Int)
  | setFps (fps : Int)
  | setZoom (zoom : Nat)
  | flip (axis : FlipAxis)
  | setBitrate (bitrate : Int)
  | setAdaptiveBitrate (min max : Int)
  | setStabilization (enabled : Bool)
  | setFlash (enabled : Bool)
  | setFocus (mode : Int)
  | setH265Codec (enabled : Bool)
deriving DecidableEq, Repr

/-- What is posted to the main thread. Options objects are named by their place
in the heap. -/
inductive Task where
  | startStream (newOptions : Nat)
  | restartStream
  | applyEffectFilter (category : Category) (filterName : JString)
  | addCorrectionFilter (filter : Option BaseFilterRender) (value : Int)
  | flip (axis : FlipAxis)
deriving DecidableEq, Repr

structure Streamer where
  objects : Nat → StreamOptions
  allocated : Nat
  current : Nat
  glInterface : List Nat
  tasks : List Task
  fresh : Nat
  isStreaming : Bool
  commands : List CameraCommand

namespace Streamer

/-- A streamer as its constructor leaves it. -/
def initial : Streamer where
  objects := fun _ => {}
  allocated := 1
  current := 0
  glInterface := []
  tasks := []
  fresh := 0
  isStreaming := false
  commands := []

section Fields

variable (streamer : Streamer)

def options : StreamOptions := streamer.objects streamer.current

/-- A change of the object that `options` refers to. -/
def update (change : StreamOptions → StreamOptions) : Streamer :=
  { streamer with
    objects := Function.update streamer.objects streamer.current (change streamer.options) }

def post (task : Task) : Streamer := { streamer with tasks := streamer.tasks ++ [task] }

def command (command : CameraCommand) : Streamer :=
  { streamer with commands := streamer.commands ++ [command] }

/-- `glInterface.addFilter`. -/
def addFilter (id : Nat) : Streamer :=
  { streamer with glInterface := streamer.glInterface ++ [id] }

/-- `glInterface.removeFilter`. -/
def removeFilter (id : Nat) : Streamer :=
  { streamer with glInterface := streamer.glInterface.erase id }

/-- The identity of the next object. -/
def taken : Streamer := { streamer with fresh := streamer.fresh + 1 }

end Fields

section Calls

variable (environment : Environment) (streamer : Streamer)

def startStream (newOptions : StreamOptions) : Streamer :=
  { streamer with
    objects := Function.update streamer.objects streamer.allocated newOptions
    allocated := streamer.allocated + 1
    current := streamer.allocated
    fresh := streamer.fresh + newOptions.activeCorrectionFilters.length + 1 }.post
      (.startStream streamer.allocated)

def switchCamera : Streamer :=
  if environment.opensCamera streamer.options then
    (streamer.command .switchCamera).update fun options =>
      { options with camera := if options.camera = .back then .front else .back }
  else streamer.command (.sendErrorReport "Can't switch camera")

def resolutionInRange (width height : Int) : Bool :=
  160 ≤ width && width ≤ 8192 && 160 ≤ height && height ≤ 8192 && width * height ≤ 16777216

/-- `zoom.isFinite() && zoom in 1.0f..10.0f`: the bit patterns between those of
1.0 and 10.0, since positive floats are ordered as their bit patterns. -/
def zoomInRange (zoom : Nat) : Bool := 0x3f800000 ≤ zoom && zoom ≤ 0x41200000

def kilobitsInRange (bitrate : Int) : Bool := 64 ≤ bitrate && bitrate ≤ 25000

/-- A call on the receiver thread; `none` where the arguments make the function
return without doing anything. A resolution or a frame rate that is already
set is done. -/
def call : StreamerCall → Option Streamer
  | .startStream newOptions => some (streamer.startStream newOptions)
  | .switchCamera => some (streamer.switchCamera environment)
  | .setResolution width height =>
      if !resolutionInRange width height then none
      else if streamer.options.width = width ∧ streamer.options.height = height then some streamer
      else some ((streamer.update fun options =>
        { options with
          width := width
          height := height
          bitrate := environment.calculateOptimalBitrate width height options.fps }).post
        .restartStream)
  | .rotate degrees =>
      if degrees ∉ [0, 90, 180, 270] then none
      else
        let turned := streamer.update fun options =>
          { options with rotation := (options.rotation + degrees).bmod (2 ^ 32) }
        some (turned.command (.setStreamRotation turned.options.rotation))
  | .applyEffectFilter filterName =>
      if getCategory filterName = .correction then none
      else some (streamer.post (.applyEffectFilter (getCategory filterName) filterName))
  | .applyCorrectionFilter filterName value =>
      match getClass filterName with
      | none => none
      | some fclass =>
          if getCategory filterName ≠ .correction then none
          else
            match streamer.options.activeCorrectionFilters.find? (·.filterClass = fclass) with
            | some existingFilter => some (streamer.update fun options =>
                { options with
                  activeCorrectionFilters := options.activeCorrectionFilters.map fun filter =>
                    if filter.id = existingFilter.id then FilterAdjuster.adjust filter value
                    else filter })
            | none =>
                let filter := (create environment.newInstance filterName).map fun filterClass =>
                  (⟨streamer.fresh, filterClass, none⟩ : BaseFilterRender)
                some (streamer.taken.post (.addCorrectionFilter filter value))
  | .setFps fps =>
      if !(1 ≤ fps && fps ≤ 60) then none
      else if streamer.options.fps = fps then some streamer
      else some ((streamer.update fun options => { options with fps := fps }).post .restartStream)
  | .setZoom zoom => if !zoomInRange zoom then none else some (streamer.command (.setZoom zoom))
  | .flip axis => some (streamer.post (.flip axis))
  | .setBitrate bitrate =>
      if !kilobitsInRange bitrate then none
      else some ((streamer.update fun options =>
        { options with adaptiveBitrateEnabled := false }).command
          (.setVideoBitrateOnFly (bitrate * 1024)))
  | .setAdaptiveBitrate min max =>
      if !(kilobitsInRange min && min ≤ max && max ≤ 25000) then none
      else some (((streamer.update fun options =>
        { options with
          adaptiveBitrateEnabled := true
          adaptiveBitrateMin := min * 1024
          adaptiveBitrateMax := max * 1024 }).command (.setMaxBitrate (max * 1024))).command
            (.setVideoBitrateOnFly (max * 1024)))
  | .setStabilization enabled => some (streamer.command
      (if enabled then .enableVideoStabilization else .disableVideoStabilization))
  | .setFlash enabled => some (streamer.command
      (if enabled then .enableLantern else .disableLantern))
  | .setFocus mode =>
      if mode = 0 then some (streamer.command .enableAutoFocus)
      else if mode = 1 then some (streamer.command .disableAutoFocus)
      else none
  | .setH265Codec enabled =>
      let changed := streamer.command (.setVideoCodec enabled)
      some (if streamer.isStreaming then changed.post .restartStream else changed)

end Calls

section Tasks

variable (environment : Environment) (streamer : Streamer)

/-- `toggleFilter` with the assignment of its result. -/
def toggleFilter (filterClass : FilterClass) (current : Option BaseFilterRender)
    (assign : Option BaseFilterRender → StreamOptions → StreamOptions) : Streamer :=
  match current with
  | some filter => (streamer.removeFilter filter.id).update (assign none)
  | none => ((streamer.addFilter streamer.fresh).update
      (assign (some ⟨streamer.fresh, filterClass, none⟩))).taken

/-- The task of `applyEffectFilter`. -/
def replaceEffect (category : Category) (filterName : JString) : Streamer :=
  let removed :=
    match streamer.options.activeEffectFilter with
    | some filter => streamer.removeFilter filter.id
    | none => streamer
  if category ≠ .none then
    match create environment.newInstance filterName with
    | some filterClass => ((removed.addFilter removed.fresh).update fun options =>
        { options with activeEffectFilter := some ⟨removed.fresh, filterClass, none⟩ }).taken
    | none => removed
  else removed.update fun options => { options with activeEffectFilter := none }

/-- The commands of `applyOptionsToStream`. -/
def optionCommands (options : StreamOptions) : List CameraCommand :=
  [if options.adaptiveBitrateEnabled then .setMaxBitrate options.adaptiveBitrateMax
    else .setVideoBitrateOnFly options.bitrate,
    if options.stabilization then .enableVideoStabilization else .disableVideoStabilization,
    if options.flashEnabled then .enableLantern else .disableLantern] ++
  (if options.focusMode = 0 then [.enableAutoFocus]
    else if options.focusMode = 1 then [.disableAutoFocus] else []) ++
  [.setVideoCodec options.h265Enabled]

def applyOptionsToStream (options : StreamOptions) : Streamer :=
  { streamer with
    commands := streamer.commands ++ optionCommands options
    glInterface := streamer.glInterface ++
      options.activeEffectFilter.toList.map BaseFilterRender.id ++
      options.activeCorrectionFilters.map BaseFilterRender.id }

def startStreamInternal : Streamer :=
  if streamer.isStreaming then streamer
  else if environment.startsStream streamer.options then
    { streamer.command .startStream with isStreaming := true }
  else streamer.command (.sendErrorReport "Can't start stream")

/-- A task on the main thread. The preview is restarted around the stream and
leaves the filters alone. An exception here, from `filter!!`, ends the process. -/
def runTask : Task → Option Streamer
  | .startStream newOptions =>
      some ((streamer.applyOptionsToStream (streamer.objects newOptions)).startStreamInternal
        environment)
  | .restartStream =>
      let stopped := { streamer.command .stopStream with isStreaming := false }
      some (if streamer.isStreaming then stopped.startStreamInternal environment else stopped)
  | .applyEffectFilter category filterName =>
      some (streamer.replaceEffect environment category filterName)
  | .addCorrectionFilter none _ => none
  | .addCorrectionFilter (some filter) value =>
      some ((streamer.update fun options =>
        { options with activeCorrectionFilters :=
            options.activeCorrectionFilters ++ [FilterAdjuster.adjust filter value] }).addFilter
          filter.id)
  | .flip .horizontal => some (streamer.toggleFilter .horizontalFlipFilterRender
      streamer.options.hFlipFilter fun filter options => { options with hFlipFilter := filter })
  | .flip .vertical => some (streamer.toggleFilter .verticalFlipFilterRender
      streamer.options.vFlipFilter fun filter options => { options with vFlipFilter := filter })

end Tasks

end Streamer

end OpenCam.Android
