import OpenCam.Crypto.Hkdf
import OpenCam.Interaction.Prog

/-!
What the two peers ask of their surroundings: randomness, the clock, the
cryptographic libraries, the socket and, on the controller, the display, the
listener and the media pipeline. `writeAll` and `readAll` are the blocking
transfers on top of which both peers frame their messages; `Transport` models
the loops behind them.
-/

namespace OpenCam.Control

open Octets Interaction

/-- Nanoseconds of the monotonic clock. -/
abbrev Time := Int

/-- `revents` of one polled descriptor. -/
structure Revents where
  pollin : Bool
  pollout : Bool
  pollerr : Bool
  pollhup : Bool
  pollnval : Bool
deriving DecidableEq, Repr

/-- What `poll` on one descriptor returns: a positive count, zero, or -1 with
`EINTR` or another `errno`. -/
inductive PollResult where
  | ready (revents : Revents)
  | timeout
  | interrupted
  | failed
deriving DecidableEq, Repr

/-- What `accept4` returns. An accepted client comes with the text `inet_ntop`
gives for its address, if it gives one. -/
inductive AcceptResult where
  | client (address : Option Bytes)
  | interrupted
  | failed
deriving DecidableEq, Repr

inductive MediaPipelineState where
  | stopped
  | starting
  | running
  | failed
deriving DecidableEq, Repr

inductive Op where
  | now
  | randBytes
  | secureRandom
  | hmac (key data : Bytes)
  | hkdfExpand (prk info : Bytes)
  | hkdfExtractAndExpand (salt key info : Bytes)
  | gcmEncrypt (key nonce aad plaintext : Bytes)
  | gcmDecrypt (key nonce aad ciphertext tag : Bytes)
  | constantTimeEqual (left right : Bytes)
  | writeAll (bytes : Bytes) (timeoutMs : Int) (deadline : Time)
  | readAll (size : Nat) (timeoutMs : Int) (deadline : Time)
  | findOpenCamDevice
  | waitForRtsp (url : Bytes)
  | pipelineStart (url device : Bytes)
  | pipelineState
  | pipelineErrorMessage
  | pipelineStop
  | pollClient (timeoutMs : Int)
  | displayPairingQr (payload : Bytes)
  | pollListener (timeoutMs : Int)
  | accept4
  | close
deriving DecidableEq

namespace Op

/-- What an operation answers. Fallible calls answer `none` or `false`; the
libraries' output sizes and the meaning of a comparison are part of the type. -/
@[reducible] def Res : Op → Type
  | now => Time
  | randBytes => Option (Block 32)
  | secureRandom => Block 32
  | hmac _ _ => Option (Block 32)
  | hkdfExpand _ _ => Option (Block 32)
  | hkdfExtractAndExpand _ _ _ => Option (Block 32)
  | gcmEncrypt _ _ _ plaintext => Option (Block (plaintext.length + 16))
  | gcmDecrypt _ _ _ _ _ => Option Bytes
  | constantTimeEqual left right => {equal : Bool // equal = true ↔ left = right}
  | writeAll _ _ _ => Bool
  | readAll size _ _ => Option (Block size)
  | findOpenCamDevice => Bytes
  | waitForRtsp _ => Bool
  | pipelineStart _ _ => Bool
  | pipelineState => MediaPipelineState
  | pipelineErrorMessage => Bytes
  | pipelineStop => Unit
  | pollClient _ => PollResult
  | displayPairingQr _ => Bool
  | pollListener _ => PollResult
  | accept4 => AcceptResult
  | close => Unit

end Op

/-- A program of one of the peers. -/
abbrev Program (α : Type) := Prog Op Op.Res α

abbrev Action := Event Op Op.Res

abbrev Trace := List Action

abbrev ask (op : Op) : Program op.Res := Prog.perform op

/-- One invocation of AES-256-GCM encryption. -/
structure Encryption where
  key : Bytes
  nonce : Bytes
  aad : Bytes
  plaintext : Bytes
deriving DecidableEq, Repr

/-- One tag of HMAC-SHA256. -/
structure Mac where
  key : Bytes
  data : Bytes
  tag : Block 32
deriving DecidableEq

section Observations

/-- The bytes an action hands to the peer. A transfer that fails has not sent
all of its bytes. -/
def Action.written : Action → Bytes
  | ⟨.writeAll bytes _ _, complete⟩ => bif complete then bytes else []
  | _ => []

def Action.received : Action → Bytes
  | ⟨.readAll _ _ _, some bytes⟩ => bytes.val
  | _ => []

def Action.encryption : Action → Option Encryption
  | ⟨.gcmEncrypt key nonce aad plaintext, _⟩ => some ⟨key, nonce, aad, plaintext⟩
  | _ => none

def Action.mac : Action → Option Mac
  | ⟨.hmac key data, some tag⟩ => some ⟨key, data, tag⟩
  | _ => none

/-- What an action has drawn at random. -/
def Action.drawn : Action → Option (Block 32)
  | ⟨.randBytes, nonce⟩ => nonce
  | ⟨.secureRandom, nonce⟩ => some nonce
  | _ => none

/-- What a run has put on the wire with its completed transfers. -/
def written (trace : Trace) : Bytes := trace.flatMap Action.written

/-- What a run has taken from the wire. -/
def received (trace : Trace) : Bytes := trace.flatMap Action.received

/-- The encryptions of a run, in order. -/
def encryptions (trace : Trace) : List Encryption := trace.filterMap Action.encryption

/-- The tags a run has computed, in order. -/
def macs (trace : Trace) : List Mac := trace.filterMap Action.mac

@[simp] theorem written_append (front back : Trace) :
    written (front ++ back) = written front ++ written back := by simp [written]

@[simp] theorem received_append (front back : Trace) :
    received (front ++ back) = received front ++ received back := by simp [received]

@[simp] theorem encryptions_append (front back : Trace) :
    encryptions (front ++ back) = encryptions front ++ encryptions back := by simp [encryptions]

@[simp] theorem macs_append (front back : Trace) :
    macs (front ++ back) = macs front ++ macs back := by simp [macs]

theorem written_cons (event : Action) (trace : Trace) :
    written (event :: trace) = event.written ++ written trace := List.flatMap_cons

theorem received_cons (event : Action) (trace : Trace) :
    received (event :: trace) = event.received ++ received trace := List.flatMap_cons

theorem encryptions_cons (event : Action) (trace : Trace) :
    encryptions (event :: trace) = event.encryption.toList ++ encryptions trace := by
  rw [encryptions, List.filterMap_cons]
  cases event.encryption <;> rfl

/-- The operations of the socket loops and their deadlines. -/
def Op.IsTransfer : Op → Prop
  | .now | .writeAll _ _ _ | .readAll _ _ _ => True
  | _ => False

/-- Framing never encrypts. -/
theorem encryptions_eq_nil {trace : Trace} (h : ∀ event ∈ trace, event.op.IsTransfer) :
    encryptions trace = [] := by
  rw [encryptions, List.filterMap_eq_nil_iff]
  rintro ⟨op, res⟩ hmem
  have hop : op.IsTransfer := h _ hmem
  cases op <;> first | rfl | exact hop.elim

/-- Framing computes no tags. -/
theorem macs_eq_nil {trace : Trace} (h : ∀ event ∈ trace, event.op.IsTransfer) :
    macs trace = [] := by
  rw [macs, List.filterMap_eq_nil_iff]
  rintro ⟨op, res⟩ hmem
  have hop : op.IsTransfer := h _ hmem
  cases op <;> first | rfl | exact hop.elim

theorem mem_macs {trace : Trace} {mac : Mac} :
    mac ∈ macs trace ↔ ⟨.hmac mac.key mac.data, some mac.tag⟩ ∈ trace := by
  rw [macs, List.mem_filterMap]
  constructor
  · rintro ⟨⟨op, res⟩, hmem, hmac⟩
    cases op with
    | hmac key data =>
        cases res with
        | none => cases hmac
        | some tag =>
            cases hmac
            exact hmem
    | _ => cases hmac
  · intro hmem
    exact ⟨_, hmem, rfl⟩

/-- Anything but a write. -/
def Op.Silent : Op → Prop
  | .writeAll _ _ _ => False
  | _ => True

/-- The operations of the reading loops and their deadlines. -/
def Op.IsReading : Op → Prop
  | .now | .readAll _ _ _ => True
  | _ => False

theorem Op.IsReading.transfer {op : Op} (h : op.IsReading) : op.IsTransfer := by
  cases op <;> trivial

theorem Op.IsReading.silent {op : Op} (h : op.IsReading) : op.Silent := by
  cases op <;> trivial

theorem written_eq_nil {trace : Trace} (h : ∀ event ∈ trace, event.op.Silent) :
    written trace = [] := by
  apply List.flatMap_eq_nil_iff.mpr
  rintro ⟨op, res⟩ hmem
  have hop : op.Silent := h _ hmem
  cases op <;> first | rfl | exact hop.elim

end Observations

section Transfers

variable {σ : Type} (answer : (op : Op) → σ → Option (op.Res × σ))

/-- The environment takes these bytes completely. -/
def Takes (timeoutMs : Int) (deadline : Time) (state : σ) (bytes : Bytes) (state' : σ) : Prop :=
  answer (.writeAll bytes timeoutMs deadline) state = some (true, state')

/-- A read of as many bytes yields these. -/
def Delivers (timeoutMs : Int) (deadline : Time) (state : σ) (bytes : Bytes) (state' : σ) : Prop :=
  ∀ (size : Nat) (hsize : bytes.length = size),
    answer (.readAll size timeoutMs deadline) state = some (some ⟨bytes, hsize⟩, state')

end Transfers

end OpenCam.Control
