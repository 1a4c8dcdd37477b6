import OpenCam.Android.Streamer

/-!
`StreamActivity.kt`: how the phone cuts the byte stream of a USB session into
control messages and what it does with each. A rejected message closes the
connection, and nothing is received from then on.
-/

namespace OpenCam.Android

open Octets Jvm

namespace PacketType

def RESOLUTION : Nat := 0x01
def ACTIVATION : Nat := 0x02
def CAMERA : Nat := 0x03
def CORRECTION_FILTER : Nat := 0x05
def EFFECT_FILTER : Nat := 0x06
def ROTATION : Nat := 0x07
def BITRATE : Nat := 0x08
def ADAPTIVE_BITRATE : Nat := 0x09
def STABILIZATION : Nat := 0xa
def FLASH : Nat := 0xb
def FOCUS : Nat := 0xc
def CODEC : Nat := 0xd
def FPS : Nat := 0xe
def ZOOM : Nat := 0xf
def FLIP : Nat := 0x10

end PacketType

open PacketType

/-- The read buffer of `TCPConnection.receiveLoop` over USB. -/
def LEGACY_BUFFER : Nat := 512

section Lengths

/-- `(data[offset] and 0xff)`, for an index in range. -/
def unsignedByte (data : Bytes) (offset : Nat) : Nat := (data.getD offset 0).toNat

/-- The big-endian length at an offset in range. -/
def bigEndianShort (data : Bytes) (offset : Nat) : Nat :=
  unsignedByte data offset * 256 + unsignedByte data (offset + 1)

/-- The loop over the filters of an activation: the offset behind them, or
`none` while they are incomplete. -/
def activationFilters (data : Bytes) : Nat → Nat → Except Throwable (Option Nat)
  | 0, offset => .ok (some offset)
  | count + 1, offset =>
      if data.length < offset + 2 then .ok none
      else
        let nameLength := bigEndianShort data offset
        if nameLength > 128 then .error (.illegalArgument "Failed requirement.")
        else if data.length < offset + 2 + nameLength + 4 then .ok none
        else activationFilters data count (offset + 2 + nameLength + 4)

/-- The size of an activation message, its command byte included. -/
def activationLength (data : Bytes) : Except Throwable (Option Nat) :=
  if data.length < 39 then .ok none
  else
    let filterCount := bigEndianShort data 37
    if filterCount > 128 then .error (.illegalArgument "Failed requirement.")
    else do
      match ← activationFilters data filterCount 39 with
      | none => .ok none
      | some offset =>
          if data.length < offset + 2 then .ok none
          else
            let effectLength := bigEndianShort data offset
            if effectLength > 128 then .error (.illegalArgument "Failed requirement.")
            else .ok (some (offset + 2 + effectLength))

/-- The size of a filter command, its command byte included. -/
def filterLength (data : Bytes) (extra : Nat) : Except Throwable (Option Nat) :=
  if data.length < 2 then .ok none
  else
    let nameLength := unsignedByte data 1
    if nameLength > 128 then .error (.illegalArgument "Failed requirement.")
    else .ok (some (2 + nameLength + extra))

/-- The `when` of `legacyMessageLength`. -/
def fixedLength (data : Bytes) : Except Throwable (Option Nat) :=
  let type := unsignedByte data 0
  if type = CAMERA then .ok (some 1)
  else if type = RESOLUTION then .ok (some 5)
  else if type ∈ [ROTATION, FOCUS, FPS, FLASH, CODEC, STABILIZATION, FLIP] then .ok (some 2)
  else if type = BITRATE then .ok (some 3)
  else if type ∈ [ADAPTIVE_BITRATE, ZOOM] then .ok (some 5)
  else if type = EFFECT_FILTER then filterLength data 0
  else if type = CORRECTION_FILTER then filterLength data 1
  else if type = ACTIVATION then activationLength data
  else .error (.illegalArgument "Unknown legacy command")

/-- The size of the message at the front, or `none` while it is incomplete. -/
def legacyMessageLength (data : Bytes) : Except Throwable (Option Nat) :=
  if data.isEmpty then .ok none
  else do
    match ← fixedLength data with
    | none => .ok none
    | some fixed =>
        if fixed > 65536 then .error (.illegalArgument "Failed requirement.")
        else if data.length < fixed then .ok none
        else .ok (some fixed)

end Lengths

section Packets

/-- `u16(offset)`: little-endian. -/
def littleEndianShort (payload : Bytes) (offset : Nat) : Nat :=
  unsignedByte payload offset + unsignedByte payload (offset + 1) * 256

/-- The bits of the little-endian `Float` at the front. -/
def floatBits (payload : Bytes) : Nat :=
  unsignedByte payload 0 + unsignedByte payload 1 * 256 + unsignedByte payload 2 * 65536 +
    unsignedByte payload 3 * 16777216

/-- `payload.last().toInt()`. -/
def lastByte (payload : Bytes) : Int := (payload.getLastD 0).toInt8.toInt

def requireSize (payload : Bytes) (size : Nat) : Except Throwable Unit :=
  require' (payload.length = size)

def strictUtf8 (bytes : Bytes) : Except Throwable JString :=
  match decodeUtf8 bytes with
  | some text => .ok text
  | none => .error .characterCoding

/-- A command that carries a filter name. -/
def handleFilter (correction : Bool) (payload : Bytes) : Except Throwable StreamerCall := do
  require' (!payload.isEmpty)
  let nameLength := unsignedByte payload 0
  require' (1 ≤ nameLength && nameLength ≤ 128 &&
    payload.length = 1 + nameLength + if correction then 1 else 0)
  let name ← strictUtf8 ((payload.drop 1).take nameLength)
  if correction then .ok (.applyCorrectionFilter name (lastByte payload))
  else .ok (.applyEffectFilter name)

/-- A command that carries a flag. -/
def handleFlag (payload : Bytes) (call : Bool → StreamerCall) : Except Throwable StreamerCall := do
  requireSize payload 1
  require' (unsignedByte payload 0 = 0 || unsignedByte payload 0 = 1)
  .ok (call (unsignedByte payload 0 = 1))

/-- The call that a message leads to. -/
def handlePacket (environment : Environment) (fresh type : Nat) (payload : Bytes) :
    Except Throwable StreamerCall := do
  if type = ACTIVATION then
    match StreamOptions.deserialize environment.newInstance fresh payload with
    | .ok options => .ok (.startStream options)
    | .error (.thrown failure) => .error failure
    | .error (.outOfBounds _) => .error .bufferUnderflow
  else if type = CAMERA then
    requireSize payload 0
    .ok .switchCamera
  else if type = RESOLUTION then
    requireSize payload 4
    let width : Int := littleEndianShort payload 0
    let height : Int := littleEndianShort payload 2
    require' (Streamer.resolutionInRange width height)
    .ok (.setResolution width height)
  else if type = ROTATION then
    requireSize payload 1
    .ok (.rotate (unsignedByte payload 0))
  else if type = EFFECT_FILTER then handleFilter false payload
  else if type = CORRECTION_FILTER then handleFilter true payload
  else if type = BITRATE then
    requireSize payload 2
    let value : Int := littleEndianShort payload 0
    require' (Streamer.kilobitsInRange value)
    .ok (.setBitrate value)
  else if type = ADAPTIVE_BITRATE then
    requireSize payload 4
    let min : Int := littleEndianShort payload 0
    let max : Int := littleEndianShort payload 2
    require' (Streamer.kilobitsInRange min && min ≤ max && max ≤ 25000)
    .ok (.setAdaptiveBitrate min max)
  else if type = STABILIZATION then handleFlag payload .setStabilization
  else if type = FLASH then handleFlag payload .setFlash
  else if type = CODEC then handleFlag payload .setH265Codec
  else if type = FOCUS then
    requireSize payload 1
    require' (unsignedByte payload 0 ≤ 1)
    .ok (.setFocus (unsignedByte payload 0))
  else if type = FPS then
    requireSize payload 1
    require' (1 ≤ unsignedByte payload 0 && unsignedByte payload 0 ≤ 60)
    .ok (.setFps (unsignedByte payload 0))
  else if type = ZOOM then
    requireSize payload 4
    require' (Streamer.zoomInRange (floatBits payload))
    .ok (.setZoom (floatBits payload))
  else if type = FLIP then
    requireSize payload 1
    require' (unsignedByte payload 0 ≤ 1)
    .ok (.flip (if unsignedByte payload 0 = 0 then .vertical else .horizontal))
  else .error (.illegalArgument "Unknown command")

end Packets

section Receiving

/-- The phone's end of a USB session. `handled` lists the calls made on the
streamer and whether each was performed or ignored. -/
structure StreamActivity where
  legacyPending : Bytes
  streamer : Streamer
  handled : List (StreamerCall × Bool)
  closed : Bool

namespace StreamActivity

/-- A session on which nothing has been received. -/
def opened (streamer : Streamer) : StreamActivity where
  legacyPending := []
  streamer := streamer
  handled := []
  closed := false

variable (environment : Environment)

def close (activity : StreamActivity) : StreamActivity := { activity with closed := true }

/-- `handlePacket` with the call it makes. -/
def handle (activity : StreamActivity) (message : Bytes) : Except Throwable StreamActivity := do
  let call ← handlePacket environment activity.streamer.fresh (unsignedByte message 0)
    (message.drop 1)
  match activity.streamer.call environment call with
  | some streamer =>
      .ok { activity with streamer := streamer, handled := activity.handled ++ [(call, true)] }
  | none => .ok { activity with handled := activity.handled ++ [(call, false)] }

/-- The loop of `onLegacyBytesReceived`. Every message has at least one byte, so
as many rounds as there are bytes are enough. -/
def drain : Nat → StreamActivity → StreamActivity
  | 0, activity => activity
  | rounds + 1, activity =>
      match legacyMessageLength activity.legacyPending with
      | .error _ => activity.close
      | .ok none => activity
      | .ok (some length) =>
          match activity.handle environment (activity.legacyPending.take length) with
          | .error _ => activity.close
          | .ok handled => drain rounds
              { handled with legacyPending := activity.legacyPending.drop length }

def onLegacyBytesReceived (activity : StreamActivity) (bytes : Bytes) : StreamActivity :=
  if activity.closed then activity
  else if bytes.length < 1 || activity.legacyPending.length + bytes.length > 65536 then
    activity.close
  else
    let pending := activity.legacyPending ++ bytes
    drain environment (pending.length + 1) { activity with legacyPending := pending }

/-- The pieces of a byte stream, in the order in which they are read. -/
def receiveAll (activity : StreamActivity) (pieces : List Bytes) : StreamActivity :=
  pieces.foldl (onLegacyBytesReceived environment) activity

end StreamActivity

end Receiving

end OpenCam.Android
