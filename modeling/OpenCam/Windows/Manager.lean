import OpenCam.Android.StreamActivity

/-!
The commands of `RTSP::Manager` in `manager.cpp`: the packet that each sends,
and what the phone makes of any run of them. Calls are cut out of the stream
whatever pieces it arrives in; a call that the phone rejects or ignores shows
up as such.
-/

namespace OpenCam.Windows

open Octets Jvm

namespace Command

def RESOLUTION : UInt8 := 0x01
def ACTIVATION : UInt8 := 0x02
def CAMERA : UInt8 := 0x03
def CORRECTION_FILTER : UInt8 := 0x05
def EFFECT_FILTER : UInt8 := 0x06
def ROTATION : UInt8 := 0x07
def BITRATE : UInt8 := 0x08
def ADAPTIVE_BITRATE : UInt8 := 0x09
def STABILIZATION : UInt8 := 0xa
def FLASH : UInt8 := 0xb
def FOCUS : UInt8 := 0xc
def CODEC : UInt8 := 0xd
def FPS : UInt8 := 0xe
def ZOOM : UInt8 := 0xf
def FLIP : UInt8 := 0x10

end Command

/-- The calls that the window and the dialogs make on the manager. A zoom
factor is the bit pattern of its `float`. -/
inductive ManagerCall where
  | SetResolution (width height : Nat)
  | SetFPS (fps : Int)
  | SetBitrate (bitrate : Int)
  | SetAdaptiveBitrate (min max : Int)
  | SetStabilization (enabled : Bool)
  | SetFlash (enabled : Bool)
  | SetFocusMode (mode : Int)
  | SetH265Codec (enabled : Bool)
  | SwapCamera
  | Rotate (degrees : Int)
  | Zoom (factor : Nat)
  | FlipHorizontally
  | FlipVertically
  | ApplyCorrectionFilter (filterName : Bytes) (value : Int)
  | ApplyEffectFilter (filterName : Bytes)
deriving DecidableEq, Repr

/-- `value & 0xFF`. -/
def lowByte (value : Int) : UInt8 := UInt8.ofInt (value % 256)

/-- `static_cast<unsigned char>(value >> 8)`. -/
def highByte (value : Int) : UInt8 := UInt8.ofInt (value / 256)

def flag (enabled : Bool) : UInt8 := if enabled then 1 else 0

/-- The command byte and the name behind its length. -/
def filterPacket (command : UInt8) (filterName : Bytes) : Bytes :=
  command :: UInt8.ofNat filterName.length :: filterName

/-- The bytes that a call sends. -/
def packet : ManagerCall → Bytes
  | .SetResolution width height =>
      [Command.RESOLUTION, lowByte width, highByte width, lowByte height, highByte height]
  | .SetFPS fps => [Command.FPS, UInt8.ofInt fps]
  | .SetBitrate bitrate => [Command.BITRATE, lowByte bitrate, highByte bitrate]
  | .SetAdaptiveBitrate min max =>
      [Command.ADAPTIVE_BITRATE, lowByte min, highByte min, lowByte max, highByte max]
  | .SetStabilization enabled => [Command.STABILIZATION, flag enabled]
  | .SetFlash enabled => [Command.FLASH, flag enabled]
  | .SetFocusMode mode => [Command.FOCUS, UInt8.ofInt mode]
  | .SetH265Codec enabled => [Command.CODEC, flag enabled]
  | .SwapCamera => [Command.CAMERA]
  -- The parameter is a `uint8_t`.
  | .Rotate degrees => [Command.ROTATION, UInt8.ofInt degrees]
  | .Zoom factor => [Command.ZOOM, UInt8.ofNat factor, UInt8.ofNat (factor / 256),
      UInt8.ofNat (factor / 65536), UInt8.ofNat (factor / 16777216)]
  | .FlipHorizontally => [Command.FLIP, 1]
  | .FlipVertically => [Command.FLIP, 0]
  | .ApplyCorrectionFilter filterName value =>
      filterPacket Command.CORRECTION_FILTER filterName ++ [UInt8.ofInt value]
  | .ApplyEffectFilter filterName => filterPacket Command.EFFECT_FILTER filterName

/-- The arguments that the window and the dialogs pass. Names come from a
descriptor, so they are well-formed UTF-8. -/
def FromGui : ManagerCall → Prop
  | .SetResolution width height => 1 ≤ width ∧ width ≤ 8192 ∧ 1 ≤ height ∧ height ≤ 8192
  | .SetFPS fps => fps ∈ [15, 24, 30, 60]
  | .SetBitrate bitrate => 500 ≤ bitrate ∧ bitrate ≤ 25000
  | .SetAdaptiveBitrate min max => 500 ≤ min ∧ min ≤ max ∧ max ≤ 25000
  | .SetFocusMode mode => mode ∈ [0, 1]
  | .Rotate degrees => degrees = 90 ∨ degrees = -90
  | .Zoom factor => Android.Streamer.zoomInRange factor = true
  | .ApplyCorrectionFilter filterName value => 1 ≤ filterName.length ∧ filterName.length ≤ 128 ∧
      WellFormedUtf8 filterName ∧ 0 ≤ value ∧ value ≤ 100
  | .ApplyEffectFilter filterName => 1 ≤ filterName.length ∧ filterName.length ≤ 128 ∧
      WellFormedUtf8 filterName
  | _ => True

/-- The phone's string for a name. -/
def nameOf (filterName : Bytes) : JString := (decodeUtf8 filterName).getD []

/-- The operation that a call stands for. -/
def meant : ManagerCall → Android.StreamerCall
  | .SetResolution width height => .setResolution width height
  | .SetFPS fps => .setFps fps
  | .SetBitrate bitrate => .setBitrate bitrate
  | .SetAdaptiveBitrate min max => .setAdaptiveBitrate min max
  | .SetStabilization enabled => .setStabilization enabled
  | .SetFlash enabled => .setFlash enabled
  | .SetFocusMode mode => .setFocus mode
  | .SetH265Codec enabled => .setH265Codec enabled
  | .SwapCamera => .switchCamera
  | .Rotate degrees => .rotate degrees
  | .Zoom factor => .setZoom factor
  | .FlipHorizontally => .flip .horizontal
  | .FlipVertically => .flip .vertical
  | .ApplyCorrectionFilter filterName value => .applyCorrectionFilter (nameOf filterName) value
  | .ApplyEffectFilter filterName => .applyEffectFilter (nameOf filterName)

section Lengths

open Android

end Lengths

section Outcomes

open Android

/-- The call that arrives: the phone sees the low byte of an angle. -/
def received : ManagerCall → StreamerCall
  | .Rotate degrees => .rotate (degrees % 256)
  | call => meant call

/-- What the phone lists for a packet: the call that it made and whether the
streamer performed it, or nothing where it rejects the packet. -/
def outcome (call : ManagerCall) : Option (StreamerCall × Bool) :=
  match call with
  | .SetResolution width height =>
      if Streamer.resolutionInRange width height then some (received call, true) else none
  | .Rotate degrees => some (received call, decide (degrees % 256 ∈ [0, 90, 180, 270]))
  | .ApplyCorrectionFilter filterName _ =>
      some (received call, decide (FilterRepository.getCategory (nameOf filterName) = .correction))
  | .ApplyEffectFilter filterName =>
      some (received call, decide (FilterRepository.getCategory (nameOf filterName) ≠ .correction))
  | _ => some (received call, true)

end Outcomes

section Runs

open Android

variable (environment : Environment)

/-- What the phone lists for a run of packets, up to the first that it
rejects, and whether it rejects one. -/
def record : List ManagerCall → List (StreamerCall × Bool) × Bool
  | [] => ([], false)
  | call :: calls =>
      match outcome call with
      | none => ([], true)
      | some entry => (entry :: (record calls).1, (record calls).2)

/-- Between two reads: the phone has listed a part of `log` and, with `rest`
still to come, will list the others and close the session as `rejected` says. -/
inductive Owes (activity : StreamActivity) (rest : Bytes) (log : List (StreamerCall × Bool))
    (rejected : Bool) : Prop
  | closed (hclosed : activity.closed = true) (hlog : activity.handled = log)
      (hrejected : rejected = true)
  | receiving (calls : List ManagerCall) (hcalls : ∀ call ∈ calls, FromGui call)
      (hopen : activity.closed = false)
      (hstream : activity.legacyPending ++ rest = calls.flatMap packet)
      (hshort : ∀ call ∈ calls.head?, activity.legacyPending.length < (packet call).length)
      (hlog : activity.handled ++ (record calls).1 = log)
      (hrejected : (record calls).2 = rejected)

/-- When every byte has been read, the phone has listed what `record` says,
and an open session waits for nothing. -/
theorem Owes.finished {activity : StreamActivity} {log : List (StreamerCall × Bool)}
    {rejected : Bool} (howes : Owes activity [] log rejected) :
    activity.handled = log ∧ activity.closed = rejected ∧
      (activity.closed = false → activity.legacyPending = []) := by
  cases howes with
  | closed hclosed hlog hrejected => exact ⟨hlog, by rw [hclosed, hrejected], by simp [hclosed]⟩
  | receiving calls hcalls hopen hstream hshort hlog hrejected =>
      cases calls with
      | nil =>
          have hnothing : activity.legacyPending = [] := by simpa using hstream
          exact ⟨by simpa [record] using hlog, by rw [hopen, ← hrejected]; rfl,
            fun _ => hnothing⟩
      | cons call calls =>
          have hlong := congrArg List.length hstream
          have := hshort call rfl
          simp only [List.append_nil, List.flatMap_cons, List.length_append] at hlong
          omega

end Runs

section Commands

open Android

variable (environment : Environment)

end Commands

end OpenCam.Windows
