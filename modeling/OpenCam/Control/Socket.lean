import OpenCam.Control.Operations
import OpenCam.Interaction.Refinement

/-!
The calls on a socket out of which the peers make their transfers. A transfer may be cut into
pieces: a call moves some of its bytes, at least one where it moves any.
-/

namespace OpenCam.Control

open Octets Interaction

/-- What `send` returns: a count, or -1 with `EINTR`, with `EAGAIN`, or with another `errno`. -/
inductive SendResult where
  | sent (count : Nat)
  | interrupted
  | wouldBlock
  | failed
deriving DecidableEq, Repr

/-- Some of the bytes that were asked for. -/
abbrev Piece (size : Nat) : Type := {bytes : Bytes // bytes ≠ [] ∧ bytes.length ≤ size}

/-- What `recv` returns: bytes, 0 at the end of the stream, or -1. -/
inductive RecvResult (size : Nat) where
  | received (piece : Piece size)
  | closed
  | interrupted
  | wouldBlock
  | failed

/-- What `InputStream.read` does: it returns bytes or -1, or it throws, also where it waits
for longer than `soTimeout`. -/
inductive ReadResult (size : Nat) where
  | data (piece : Piece size)
  | endOfStream
  | failed

inductive SocketOp where
  | clock
  -- POSIX
  | poll (writing : Bool) (timeoutMs : Int)
  | send (bytes : Bytes)
  | recv (size : Nat)
  -- `java.net.Socket`
  | setSoTimeout (timeoutMs : Int)
  | read (size : Nat)
  | write (bytes : Bytes)
  -- what is not a transfer
  | other (op : Op)
deriving DecidableEq

namespace SocketOp

@[reducible] def Res : SocketOp → Type
  | clock => Time
  | poll _ _ => PollResult
  | send _ => SendResult
  | recv size => RecvResult size
  | setSoTimeout _ => Unit
  | read size => ReadResult size
  | write _ => Bool
  | other op => op.Res

def isRead : SocketOp → Bool
  | read _ => true
  | _ => false

end SocketOp

/-- A program over the calls on a socket. -/
abbrev SocketProgram (α : Type) := Prog SocketOp SocketOp.Res α

abbrev SocketEvent := Event SocketOp SocketOp.Res

abbrev call (op : SocketOp) : SocketProgram op.Res := Prog.perform op

end OpenCam.Control
