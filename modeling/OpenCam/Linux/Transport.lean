import OpenCam.Control.Socket
import OpenCam.Linux.ControlProtocol

/-!
The transfers of `control_protocol.cpp` over a POSIX socket: the waiting for a descriptor and
the loop around `send` and `recv`. Both loops start over where a signal interrupts them, so
their passes are bounded here by a number that the caller chooses.
-/

namespace OpenCam.Linux

open Octets Interaction Control

/-- `(revents & (events | POLLERR | POLLHUP)) != 0`. -/
def wakes (writing : Bool) (revents : Revents) : Bool :=
  (bif writing then revents.pollout else revents.pollin) || revents.pollerr || revents.pollhup

/-- The timeout of the next `poll`, unless the deadline has passed. -/
def pollTimeout (timeoutMs : Int) (deadline : Time) : SocketProgram (Option Int) :=
  if timeoutMs < 0 then .ret (some timeoutMs)
  else do
    let now ← call .clock
    if now ≥ deadline then .ret none
    else
      let remaining := ((deadline - now).tdiv 1000000).bmod (2 ^ 32)
      .ret (some (if remaining < 1 then 1 else remaining))

def waitFor (writing : Bool) (timeoutMs : Int) (deadline : Time) : Nat → SocketProgram Bool
  | 0 => .unfinished
  | passes + 1 => do
      match ← pollTimeout timeoutMs deadline with
      | none => .ret false
      | some remaining =>
          match ← call (.poll writing remaining) with
          | .ready revents => .ret (wakes writing revents)
          | .timeout => .ret false
          | .interrupted => waitFor writing timeoutMs deadline passes
          | .failed => .ret false

/-- One call of `send` or `recv`. -/
inductive Count where
  /-- A positive count, with the buffer and the offset behind it. -/
  | moved (data : Bytes) (offset : Nat)
  /-- `EINTR`, `EAGAIN` or `EWOULDBLOCK`. -/
  | again
  /-- Zero, or another `errno`. -/
  | stop

def moveBytes (writing : Bool) (data : Bytes) (offset : Nat) : SocketProgram Count :=
  if writing then do
    match ← call (.send (data.drop offset)) with
    | .sent count => if count = 0 then .ret .stop else .ret (.moved data (offset + count))
    | .interrupted => .ret .again
    | .wouldBlock => .ret .again
    | .failed => .ret .stop
  else do
    match ← call (.recv (data.length - offset)) with
    | .received piece =>
        .ret (.moved (data.take offset ++ piece.val ++ data.drop (offset + piece.val.length))
          (offset + piece.val.length))
    | .closed => .ret .stop
    | .interrupted => .ret .again
    | .wouldBlock => .ret .again
    | .failed => .ret .stop

/-- The loop of `transfer` from an offset on, with the buffer it leaves. -/
def transferLoop (waits : Nat) (writing : Bool) (timeoutMs : Int) (deadline : Time) :
    Nat → Bytes → Nat → SocketProgram (Bool × Bytes)
  | 0, data, offset => if offset < data.length then .unfinished else .ret (true, data)
  | passes + 1, data, offset =>
      if offset < data.length then do
        match ← waitFor writing timeoutMs deadline waits with
        | false => .ret (false, data)
        | true =>
            match ← moveBytes writing data offset with
            | .moved data offset => transferLoop waits writing timeoutMs deadline passes data offset
            | .again => transferLoop waits writing timeoutMs deadline passes data offset
            | .stop => .ret (false, data)
      else .ret (true, data)

def transfer (passes : Nat) (writing : Bool) (timeoutMs : Int) (deadline : Time) (data : Bytes) :
    SocketProgram (Bool × Bytes) :=
  transferLoop passes writing timeoutMs deadline passes data 0

/-- How the controller carries out its transfers. A buffer to be filled starts out as zeros. -/
def socketHandler (passes : Nat) : (op : Op) → SocketProgram op.Res
  | .now => call .clock
  | .readAll size timeoutMs deadline => do
      match ← transfer passes false timeoutMs deadline (List.replicate size 0) with
      | (true, data) => if h : data.length = size then .ret (some ⟨data, h⟩) else .ret none
      | (false, _) => .ret none
  | .writeAll bytes timeoutMs deadline => do
      let result ← transfer passes true timeoutMs deadline bytes
      .ret result.1
  | op => call (.other op)

/-- `sendFrame` and `receiveFrame` down to the calls on their socket. -/
def sendFrameTo (passes : Nat) (type : UInt8) (payload : Bytes) (timeoutMs : Int) :
    SocketProgram Bool :=
  (sendFrame type payload timeoutMs).refine (socketHandler passes)

def receiveFrameFrom (passes : Nat) (timeoutMs : Int) : SocketProgram (Option Frame) :=
  (receiveFrame timeoutMs).refine (socketHandler passes)

end OpenCam.Linux
