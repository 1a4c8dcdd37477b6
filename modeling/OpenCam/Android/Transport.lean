import OpenCam.Android.ControlProtocol
import OpenCam.Control.Socket

/-!
The transfers of `ControlProtocol.kt` over `java.net.Socket`: the loop of `readExact`, which
sets a timeout before each read, and the stream's own `write`.
-/

namespace OpenCam.Android

open Octets Interaction Control

/-- `((deadline - System.nanoTime()) / 1_000_000L).coerceAtLeast(1).toInt()`. -/
def remainingMs (deadline now : Time) : Int := wrapInt (max 1 ((deadline - now).tdiv 1000000))

/-- The loop of `readExact`, with the bytes read so far. Every pass that goes on has read at
least one, so as many passes as bytes are enough. -/
def readExactLoop (size : Nat) (timeoutMs : Int) (deadline : Time) :
    Nat → Bytes → SocketProgram (Option Bytes)
  | 0, bytes => if bytes.length < size then .unfinished else .ret (some bytes)
  | passes + 1, bytes =>
      if bytes.length < size then do
        let remaining ← if timeoutMs < 0 then .ret 0
          else do
            let now ← call .clock
            .ret (remainingMs deadline now)
        call (.setSoTimeout remaining)
        match ← call (.read (size - bytes.length)) with
        | .data piece => readExactLoop size timeoutMs deadline passes (bytes ++ piece.val)
        | .endOfStream => .ret none
        | .failed => .ret none
      else .ret (some bytes)

/-- How the phone carries out its transfers. -/
def socketHandler : (op : Op) → SocketProgram op.Res
  | .now => call .clock
  | .readAll size timeoutMs deadline => do
      match ← readExactLoop size timeoutMs deadline size [] with
      | some bytes => if h : bytes.length = size then .ret (some ⟨bytes, h⟩) else .ret none
      | none => .ret none
  | .writeAll bytes _ _ => call (.write bytes)
  | op => call (.other op)

/-- `readFrame` down to the calls on its socket. -/
def readFrameFrom (timeoutMs : Int) : SocketProgram Frame := (readFrame timeoutMs).refine socketHandler

end OpenCam.Android
