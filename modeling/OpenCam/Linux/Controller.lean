import OpenCam.Interaction.Refinement
import OpenCam.Linux.DeviceDescriptor
import OpenCam.Linux.Pairing
import OpenCam.Linux.SecurityValidation
import OpenCam.Linux.StreamOptions

/-!
`main.cpp`: a control connection from its first frame to the end of the session,
and the loop that shows a pairing code and takes the next connection. A connection
is one call for the loop; `mainHandler` puts its code in place of it.
-/

namespace OpenCam.Linux

open Octets Interaction Control

def HANDSHAKE_TIMEOUT_MS : Int := 5000
def DESCRIPTOR_TIMEOUT_MS : Int := 30000

/-- `std::chrono::minutes(10)`. -/
def PAIRING_LIFETIME : Time := 10 * 60 * 1000000000

section Handshake

/-- What an authenticated connection has agreed on. -/
structure Handshake where
  serverNonce : Block 32
  clientNonce : Block 32
  sessionKey : Block 32
deriving DecidableEq

/-- `std::copy_n` of a nonce from a payload that is long enough. -/
def firstNonce (payload : Bytes) (h : payload.length = 64) : Block 32 :=
  ⟨payload.take NONCE_SIZE, by rw [List.length_take, h]; rfl⟩

/-- The hello and the client's proof: the nonces under which it holds. -/
def verifyClient (secret : Block 32) : Program (Option (Block 32 × Block 32)) := do
  match ← randomSecret with
  | none => .ret none
  | some serverNonce =>
      match ← sendFrame SERVER_HELLO serverNonce.val HANDSHAKE_TIMEOUT_MS with
      | false => .ret none
      | true =>
          match ← receiveFrame HANDSHAKE_TIMEOUT_MS with
          | none => .ret none
          | some authFrame =>
              if authFrame.type ≠ CLIENT_AUTH then .ret none
              else if h : authFrame.payload.length = 64 then do
                let clientNonce := firstNonce authFrame.payload h
                match ← makeProof secret CLIENT_PROOF_DOMAIN serverNonce clientNonce with
                | none => .ret none
                | some expectedClientProof =>
                    match ← constantTimeEqual expectedClientProof.val
                      (authFrame.payload.drop NONCE_SIZE) with
                    | false => .ret none
                    | true => .ret (some (serverNonce, clientNonce))
              else .ret none

/-- The session key and the controller's own proof. -/
def proveServer (secret serverNonce clientNonce : Block 32) : Program (Option Handshake) := do
  match ← makeProof secret SERVER_PROOF_DOMAIN serverNonce clientNonce with
  | none => .ret none
  | some serverProof =>
      match ← deriveSessionKey secret serverNonce clientNonce with
      | none => .ret none
      | some sessionKey =>
          match ← sendFrame SERVER_AUTH serverProof.val HANDSHAKE_TIMEOUT_MS with
          | false => .ret none
          | true => .ret (some ⟨serverNonce, clientNonce, sessionKey⟩)

/-- `handleClient` up to `authenticated = true`. -/
def authenticateClient (secret : Block 32) (pairingExpires : Time) :
    Program (Option Handshake) := do
  match ← verifyClient secret with
  | none => .ret none
  | some (serverNonce, clientNonce) => do
      let now ← ask .now
      if now ≥ pairingExpires then .ret none else proveServer secret serverNonce clientNonce

end Handshake

section Session

variable (inetPton : Bytes → Bool)

/-- The frame that opens the encrypted channel. -/
def acceptDescriptor (clientIp : Bytes) (channel : AuthenticatedChannel) :
    Program (Option (DeviceDescriptor × AuthenticatedChannel)) := do
  match ← channel.receive DESCRIPTOR_TIMEOUT_MS with
  | (none, _) => .ret none
  | (some descriptorFrame, channel) =>
      if descriptorFrame.type ≠ DESCRIPTOR then .ret none
      else
        match parseDeviceDescriptor descriptorFrame.payload with
        | .error _ => .ret none
        | .ok descriptor =>
            if isAllowedRtspEndpoint inetPton descriptor.rtspUrl clientIp then
              .ret (some (descriptor, channel))
            else .ret none

/-- What the media pipeline is started with. -/
structure MediaSource where
  authenticatedRtspUrl : Bytes
  virtualCamera : Bytes
deriving DecidableEq

/-- The credential, the output device, the activation and the probe. -/
def activateMedia (sessionKey : Block 32) (descriptor : DeviceDescriptor)
    (channel : AuthenticatedChannel) : Program (Option (MediaSource × AuthenticatedChannel)) := do
  let mediaPassword ← deriveMediaPassword sessionKey
  if mediaPassword.length ≠ 64 then .ret none
  else do
    let url := authenticatedRtspUrl mediaPassword descriptor.rtspUrl
    let virtualCamera ← ask .findOpenCamDevice
    if virtualCamera.isEmpty then .ret none
    else
      match ← channel.send ACTIVATION (buildActivationPacket {}) HANDSHAKE_TIMEOUT_MS with
      | (false, _) => .ret none
      | (true, channel) =>
          match ← ask (.waitForRtsp url) with
          | false => .ret none
          | true => .ret (some (⟨url, virtualCamera⟩, channel))

/-- A pass of the session's loop: the channel with which it goes on, if it does. The flag
`mediaFailureReported` is never set where it is looked at. -/
def sessionPass (channel : AuthenticatedChannel) : Program (Option AuthenticatedChannel) := do
  let mediaState ← ask .pipelineState
  if mediaState = .failed ∨ mediaState = .stopped then do
    let _ ← ask .pipelineErrorMessage
    .ret none
  else
    match ← ask (.pollClient 250) with
    | .interrupted => .ret (some channel)
    | .failed => .ret none
    | .timeout => .ret (some channel)
    | .ready revents =>
        if revents.pollerr || revents.pollhup || revents.pollnval then .ret none
        else
          match ← channel.receive 2000 with
          | (none, _) => .ret none
          | (some incoming, channel) =>
              if incoming.type ≠ ERROR_REPORT then .ret none else .ret (some channel)

def sessionLoop : Nat → AuthenticatedChannel → Program Unit
  | 0, _ => .unfinished
  | passes + 1, channel => do
      match ← sessionPass channel with
      | none => .ret ()
      | some channel => sessionLoop passes channel

/-- The pipeline's life, which ends with its destructor. -/
def runMedia (passes : Nat) (source : MediaSource) (channel : AuthenticatedChannel) :
    Program Bool := do
  match ← ask (.pipelineStart source.authenticatedRtspUrl source.virtualCamera) with
  | false => do
      ask .pipelineStop
      .ret false
  | true => do
      sessionLoop passes channel
      ask .pipelineStop
      ask .pipelineStop
      .ret true

/-- Everything behind `authenticated = true`. -/
def runSession (passes : Nat) (clientIp : Bytes) (sessionKey : Block 32) : Program Bool := do
  let channel ← AuthenticatedChannel.ofSessionKey sessionKey true
  match ← acceptDescriptor inetPton clientIp channel with
  | none => .ret false
  | some (descriptor, channel) =>
      match ← activateMedia sessionKey descriptor channel with
      | none => .ret false
      | some (source, channel) => runMedia passes source channel

/-- What `handleClient` returns, and what it leaves in its flag. -/
structure ClientOutcome where
  result : Bool
  authenticated : Bool
deriving DecidableEq, Repr

def handleClient (passes : Nat) (clientIp : Bytes) (secret : Block 32) (pairingExpires : Time) :
    Program ClientOutcome := do
  match ← authenticateClient secret pairingExpires with
  | none => .ret ⟨false, false⟩
  | some handshake => do
      let result ← runSession inetPton passes clientIp handshake.sessionKey
      .ret ⟨result, true⟩

end Session

section Main

/-- What `main` calls. -/
inductive MainOp where
  | now
  | randomSecret
  | showPairingQr (address : Bytes) (secret : Block 32)
  | poll (timeoutMs : Int)
  | accept4
  | handleClient (clientIp : Bytes) (secret : Block 32) (pairingExpires : Time)
  | close
deriving DecidableEq

@[reducible] def MainOp.Res : MainOp → Type
  | now => Time
  | randomSecret => Option (Block 32)
  | showPairingQr _ _ => Bool
  | poll _ => PollResult
  | accept4 => AcceptResult
  | handleClient _ _ _ => ClientOutcome
  | close => Unit

abbrev MainProgram (α : Type) := Prog MainOp MainOp.Res α

abbrev MainEvent := Event MainOp MainOp.Res

abbrev invoke (op : MainOp) : MainProgram op.Res := Prog.perform op

/-- The code behind the calls. -/
def mainHandler (inetPton : Bytes → Bool) (passes : Nat) : (op : MainOp) → Program op.Res
  | .now => ask .now
  | .randomSecret => Linux.randomSecret
  | .showPairingQr address secret => Linux.showPairingQr address secret
  | .poll timeoutMs => ask (.pollListener timeoutMs)
  | .accept4 => ask .accept4
  | .handleClient clientIp secret pairingExpires =>
      Linux.handleClient inetPton passes clientIp secret pairingExpires
  | .close => ask .close

/-- A new secret, then a new deadline; no secret ends the loop. -/
def rotate : MainProgram (Option Time) := do
  match ← invoke .randomSecret with
  | none => .ret none
  | some _ => do
      let now ← invoke .now
      .ret (some (now + PAIRING_LIFETIME))

/-- From `accept4` to the end of a pass. -/
def takeClient (pairingSecret : Block 32) (pairingExpires : Time) :
    MainProgram (Option Time) := do
  match ← invoke .accept4 with
  | .interrupted => .ret (some pairingExpires)
  | .failed => .ret (some pairingExpires)
  | .client address => do
      let now ← invoke .now
      if now ≥ pairingExpires then do
        invoke .close
        rotate
      else do
        let clientIp := address.getD (ascii "unknown")
        let outcome ← invoke (.handleClient clientIp pairingSecret pairingExpires)
        invoke .close
        if outcome.authenticated then rotate else .ret (some pairingExpires)

/-- The body of the loop: the deadline of the next pass, if there is one. -/
def pairingPass (localIp : Bytes) (pairingSecret : Block 32) (pairingExpires : Time) :
    MainProgram (Option Time) := do
  match ← invoke (.showPairingQr localIp pairingSecret) with
  | false => .ret none
  | true => do
      let now ← invoke .now
      let remaining := (pairingExpires - now).tdiv 1000000
      let ready ← invoke (.poll ((max 0 remaining).bmod (2 ^ 32)))
      if ready = .timeout then rotate
      else do
        let now ← invoke .now
        if now ≥ pairingExpires then rotate
        else
          match ready with
          | .ready _ => takeClient pairingSecret pairingExpires
          | _ => .ret (some pairingExpires)

/-- `while (randomSecret(pairingSecret))`. -/
def pairingLoop (localIp : Bytes) : Nat → Time → MainProgram Int
  | 0, _ => .unfinished
  | passes + 1, pairingExpires => do
      match ← invoke .randomSecret with
      | none => do
          invoke .close
          .ret 1
      | some pairingSecret =>
          match ← pairingPass localIp pairingSecret pairingExpires with
          | none => do
              invoke .close
              .ret 1
          | some pairingExpires => pairingLoop localIp passes pairingExpires

/-- `main` from where its socket listens. -/
def main (localIp : Bytes) (passes : Nat) : MainProgram Int := do
  let now ← invoke .now
  pairingLoop localIp passes (now + PAIRING_LIFETIME)

end Main

end OpenCam.Linux
