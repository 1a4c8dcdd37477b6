import OpenCam.Control.Operations
import OpenCam.Control.Wire
import OpenCam.Jvm.Text

/-!
`ControlProtocol.kt`: the same protocol on the phone. `Int` and `Long`
arithmetic that could leave its range is wrapped explicitly, an exception is
the program's `throw`, and a stream that fails or ends throws.
-/

namespace OpenCam.Android

open Octets Interaction Control

def VERSION : Int := 2
def MAX_PAYLOAD : Int := 64 * 1024

def TYPE_SERVER_HELLO : Int := 1
def TYPE_CLIENT_AUTH : Int := 2
def TYPE_SERVER_AUTH : Int := 3
def TYPE_DESCRIPTOR : Int := 4
def TYPE_ACTIVATION : Int := 5
def TYPE_ERROR_REPORT : Int := 6

def MAGIC : Bytes := [0x4f, 0x43, 0x41, 0x4d]

def HEADER_SIZE : Nat := 10
def SEQUENCE_SIZE : Nat := 8
def KEY_SIZE : Nat := 32
def GCM_TAG_SIZE : Nat := 16
def ENCRYPTED_OVERHEAD : Nat := SEQUENCE_SIZE + GCM_TAG_SIZE

def HEX : Bytes := ascii "0123456789abcdef"

def SERVER_NONCE_PREFIX : Bytes := [0x53, 0x52, 0x56, 0x52]
def CLIENT_NONCE_PREFIX : Bytes := [0x43, 0x4c, 0x4e, 0x54]

def SESSION_KDF_INFO : Bytes := ascii "OpenCam control v2 session"
def SERVER_TO_CLIENT_KDF_INFO : Bytes := ascii "OpenCam control v2 server-to-client"
def CLIENT_TO_SERVER_KDF_INFO : Bytes := ascii "OpenCam control v2 client-to-server"
def MEDIA_CREDENTIAL_DOMAIN : Bytes := ascii "OpenCam RTSP credential v2"

-- The domains that `authenticate` passes to `proof`.
def CLIENT_PROOF_DOMAIN : Bytes := ascii "OpenCam client proof v2"
def SERVER_PROOF_DOMAIN : Bytes := ascii "OpenCam server proof v2"

def LONG_MAX_VALUE : Int := 2 ^ 63 - 1

/-- The value an `Int` expression takes. -/
def wrapInt (value : Int) : Int := value.bmod (2 ^ 32)

/-- The value a `Long` expression takes. -/
def wrapLong (value : Int) : Int := value.bmod (2 ^ 64)

/-- `value.toByte()`. -/
def toByte (value : Int) : UInt8 := UInt8.ofInt value

/-- `ByteBuffer.putInt` in big-endian order. -/
def putInt (value : Int) : Bytes := beBytes 4 (value % 2 ^ 32).toNat

/-- `ByteBuffer.putLong` in big-endian order. -/
def putLong (value : Int) : Bytes := beBytes 8 (value % 2 ^ 64).toNat

/-- `ByteBuffer.getInt` in big-endian order. -/
def getInt (bytes : Bytes) : Int := wrapInt (beNat bytes)

/-- `ByteBuffer.getLong` in big-endian order. -/
def getLong (bytes : Bytes) : Int := wrapLong (beNat bytes)

section Numbers

theorem toByte_natCast (byte : UInt8) : toByte byte.toNat = byte := by
  apply UInt8.toNat_inj.mp
  have := byte.toNat_lt
  unfold toByte UInt8.ofInt
  rw [UInt8.toNat_ofNat']
  omega

theorem putInt_wrapInt (size : Nat) : putInt (wrapInt size) = beBytes 4 size := by
  have hlow : (wrapInt size % 2 ^ 32).toNat = size % 256 ^ 4 := by
    unfold wrapInt
    rw [Int.bmod_def]
    split <;> omega
  rw [putInt, hlow, beBytes_mod]

theorem putInt_natCast (size : Nat) : putInt size = beBytes 4 size := by
  have hlow : ((size : Int) % 2 ^ 32).toNat = size % 256 ^ 4 := by omega
  rw [putInt, hlow, beBytes_mod]

theorem wrapInt_add (left right : Int) : wrapInt (wrapInt left + right) = wrapInt (left + right) := by
  unfold wrapInt
  simp

theorem putLong_eq {sequence : Int} (h : 0 ≤ sequence) (hmax : sequence ≤ LONG_MAX_VALUE) :
    putLong sequence = beBytes 8 sequence.toNat := by
  unfold LONG_MAX_VALUE at hmax
  unfold putLong
  congr 1
  omega

theorem getLong_eq_iff {bytes : Bytes} (hlength : bytes.length = 8) {sequence : Int}
    (h : 0 ≤ sequence) (hmax : sequence ≤ LONG_MAX_VALUE) :
    getLong bytes = sequence ↔ beNat bytes = sequence.toNat := by
  have hlt := beNat_lt bytes
  rw [hlength] at hlt
  unfold LONG_MAX_VALUE at hmax
  unfold getLong wrapLong
  rw [Int.bmod_def]
  split <;> omega

theorem and_0xff (byte : UInt8) : byte.toNat &&& 0xff = byte.toNat := by
  rw [show (0xff : Nat) = 2 ^ 8 - 1 from rfl, Nat.and_two_pow_sub_one_eq_mod]
  exact Nat.mod_eq_of_lt byte.toNat_lt

theorem wrapLong_succ {sequence : Int} (h : 0 ≤ sequence) (hmax : sequence ≤ LONG_MAX_VALUE)
    (hne : sequence ≠ LONG_MAX_VALUE) : wrapLong (sequence + 1) = sequence + 1 := by
  unfold LONG_MAX_VALUE at *
  unfold wrapLong
  rw [Int.bmod_def]
  split <;> omega

end Numbers

structure Frame where
  type : Int
  payload : Bytes
deriving DecidableEq, Repr

/-- `require(condition) { message }`. -/
def require (condition : Bool) (message : String) : Program Unit :=
  if condition then .ret () else .throw message

section Derivation

def mac (key data : Bytes) : Program Bytes := do
  match ← ask (.hmac key data) with
  | none => .throw "HmacSHA256 unavailable"
  | some tag => .ret tag.val

def hkdfExtract (salt inputKeyMaterial : Bytes) : Program Bytes := mac salt inputKeyMaterial

/-- The loop of `hkdfExpand`. `output` holds the `offset` bytes copied so far;
every pass copies at least one, so `outputLength` passes are enough. -/
def hkdfExpandLoop (prk info : Bytes) (outputLength : Nat) :
    Nat → Bytes → Bytes → Nat → Program Bytes
  | 0, _, output, _ => if output.length < outputLength then .unfinished else .ret output
  | passes + 1, previous, output, counter =>
      if output.length < outputLength then do
        let block ← mac prk (previous ++ info ++ [UInt8.ofNat counter])
        let copyLength := min block.length (outputLength - output.length)
        hkdfExpandLoop prk info outputLength passes block (output ++ block.take copyLength)
          (counter + 1)
      else .ret output

def hkdfExpand (prk info : Bytes) (outputLength : Int) : Program Bytes := do
  require (outputLength ≥ 0) "Failed requirement."
  require (outputLength ≤ 255 * 32) "Failed requirement."
  hkdfExpandLoop prk info outputLength.toNat outputLength.toNat [] [] 1

def deriveSessionKey (secret serverNonce clientNonce : Bytes) : Program Bytes := do
  require (secret.length = KEY_SIZE) "Failed requirement."
  require (serverNonce.length = 32) "Failed requirement."
  require (clientNonce.length = 32) "Failed requirement."
  let salt := serverNonce ++ clientNonce
  let prk ← hkdfExtract salt secret
  hkdfExpand prk SESSION_KDF_INFO KEY_SIZE

def deriveDirectionalKey (sessionKey info : Bytes) : Program Bytes :=
  hkdfExpand sessionKey info KEY_SIZE

def proof (secret domain serverNonce clientNonce : Bytes) : Program Bytes :=
  mac secret (domain ++ serverNonce ++ clientNonce)

def deriveMediaPassword (sessionKey : Bytes) : Program Bytes := do
  require (sessionKey.length = KEY_SIZE) "Failed requirement."
  let derived ← mac sessionKey MEDIA_CREDENTIAL_DOMAIN
  .ret (derived.flatMap fun (value : UInt8) =>
    let byte := value.toNat &&& 0xff
    [HEX.getD (byte >>> 4) 0, HEX.getD (byte &&& 0x0f) 0])

end Derivation

section Hex

def decodeHex (value : Jvm.JString) : Except String Bytes :=
  if value.length % 2 ≠ 0 then .error "Hex string must have even length"
  else
    (List.range (value.length / 2)).mapM fun index =>
      let high := Jvm.digit (value.getD (index * 2) 0) 16
      let low := Jvm.digit (value.getD (index * 2 + 1) 0) 16
      if high ≥ 0 ∧ low ≥ 0 then .ok (UInt8.ofNat (high.toNat <<< 4 ||| low.toNat))
      else .error "Invalid hexadecimal string"

end Hex

section Framing

def makeSequence (sequence : Int) : Bytes := putLong sequence

def makeHeader (type payloadSize : Int) : Bytes :=
  MAGIC ++ [toByte VERSION, toByte type] ++ putInt payloadSize

def makeNonce (noncePrefix sequence : Bytes) : Program Bytes := do
  require (noncePrefix.length = 4) "Failed requirement."
  require (sequence.length = 8) "Failed requirement."
  .ret (noncePrefix ++ sequence)

def encrypt (key nonce aad plaintext : Bytes) : Program Bytes := do
  match ← ask (.gcmEncrypt key nonce aad plaintext) with
  | none => .throw "Failed to encrypt control frame"
  | some ciphertextAndTag => .ret ciphertextAndTag.val

/-- `cipher.doFinal(ciphertextAndTag)`: the last 16 bytes are the tag. -/
def cipherDoFinal (key nonce aad ciphertextAndTag : Bytes) : Program (Option Bytes) :=
  let split := ciphertextAndTag.length - GCM_TAG_SIZE
  ask (.gcmDecrypt key nonce aad (ciphertextAndTag.take split) (ciphertextAndTag.drop split))

def decrypt (key nonce aad ciphertextAndTag : Bytes) : Program Bytes := do
  match ← cipherDoFinal key nonce aad ciphertextAndTag with
  | none => .throw "Invalid encrypted control frame"
  | some plaintext => .ret plaintext

/-- `output.write(bytes)`, which blocks until all of it is written. -/
def outputWrite (bytes : Bytes) : Program Unit := do
  match ← ask (.writeAll bytes (-1) LONG_MAX_VALUE) with
  | false => .throw "Stream write failed"
  | true => .ret ()

def writeFrame (type : Int) (payload : Bytes) : Program Unit := do
  require (payload.length ≤ MAX_PAYLOAD) "Failed requirement."
  let header := makeHeader type payload.length
  outputWrite header
  outputWrite payload

def readExact (size : Nat) (timeoutMs : Int) (deadline : Time) : Program Bytes :=
  if size = 0 then .ret []
  else do
    match ← ask (.readAll size timeoutMs deadline) with
    | none => .throw "Peer closed the connection"
    | some bytes => .ret bytes.val

/-- The `deadline` of `readFrame`. -/
def readDeadline (timeoutMs : Int) : Program Time :=
  if timeoutMs < 0 then .ret LONG_MAX_VALUE
  else do
    let now ← ask .now
    .ret (now + timeoutMs * 1000000)

def readFrame (timeoutMs : Int) : Program Frame := do
  let deadline ← readDeadline timeoutMs
  let header ← readExact HEADER_SIZE timeoutMs deadline
  if header.take 4 ≠ MAGIC ∨ ((header.getD 4 0).toNat &&& 0xff : Nat) ≠ VERSION then
    .throw "Invalid protocol header"
  else
    let type := (header.getD 5 0).toNat &&& 0xff
    let length := getInt (header.drop 6)
    if length < 0 ∨ length > MAX_PAYLOAD then .throw "Invalid message length"
    else do
      let payload ← readExact length.toNat timeoutMs deadline
      .ret ⟨type, payload⟩

theorem makeHeader_eq (type : Int) (payloadSize : Nat) :
    makeHeader type payloadSize = encodeHeader (toByte type) payloadSize := by
  rw [makeHeader, putInt_natCast]
  rfl

theorem makeHeader_wire (type : Int) (payload : Bytes) :
    makeHeader type (wrapInt (wrapInt (SEQUENCE_SIZE + payload.length) + GCM_TAG_SIZE)) =
      encodeHeader (toByte type) (payload.length + 24) := by
  have hsize : (SEQUENCE_SIZE + payload.length + GCM_TAG_SIZE : Int) =
      (payload.length + 24 : Nat) := by
    simp only [SEQUENCE_SIZE, GCM_TAG_SIZE]
    omega
  rw [wrapInt_add, hsize, makeHeader, putInt_wrapInt]
  rfl

theorem makeNonce_eq (serverSide : Bool) {sequence : Bytes} (h : sequence.length = 8) :
    makeNonce (if serverSide then SERVER_NONCE_PREFIX else CLIENT_NONCE_PREFIX) sequence =
      .ret (noncePrefix serverSide ++ sequence) := by
  unfold makeNonce require
  cases serverSide <;> simp [h] <;> rfl

theorem require_returns {condition : Bool} {message : String} {trace : Trace} {value : Unit}
    (run : Runs (require condition message) trace (.ret value)) : condition = true ∧ trace = [] := by
  cases condition with
  | false => simp [require] at run
  | true => exact ⟨rfl, (runs_ret_iff.mp run).1⟩

theorem outputWrite_returns {bytes : Bytes} {trace : Trace} {value : Unit}
    (run : Runs (outputWrite bytes) trace (.ret value)) :
    trace = [⟨.writeAll bytes (-1) LONG_MAX_VALUE, true⟩] := by
  obtain ⟨answer, rest, rfl, hrest⟩ := returns_perform_bind_iff.mp run
  cases answer with
  | false => simp at hrest
  | true => rw [(runs_ret_iff.mp hrest).1]

/-- A `writeFrame` that returns has written its frame and nothing else. -/
theorem writeFrame_returns {type : Int} {payload : Bytes} {trace : Trace} {value : Unit}
    (run : Runs (writeFrame type payload) trace (.ret value)) :
    payload.length ≤ 65536 ∧ written trace = encodeFrame ⟨toByte type, payload⟩ ∧
      received trace = [] := by
  obtain ⟨_, front, back, rfl, hrequire, hback⟩ := returns_bind_iff.mp run
  obtain ⟨hsize, rfl⟩ := require_returns hrequire
  obtain ⟨_, first, second, rfl, hfirst, hsecond⟩ := returns_bind_iff.mp hback
  rw [outputWrite_returns hfirst, outputWrite_returns hsecond, makeHeader_eq]
  refine ⟨?_, ?_, rfl⟩
  · have hsmall : (payload.length : Int) ≤ 64 * 1024 := of_decide_eq_true hsize
    omega
  · simp [written, Action.written, encodeFrame]

theorem writeFrame_performs (type : Int) (payload : Bytes) :
    (writeFrame type payload).Performs Op.IsTransfer := by
  unfold writeFrame require outputWrite
  split
  · refine ⟨trivial, fun header => ?_⟩
    cases header with
    | false => trivial
    | true =>
        refine ⟨trivial, fun body => ?_⟩
        cases body <;> trivial
  · trivial

theorem readExact_returns {size : Nat} {timeoutMs : Int} {deadline : Time} {trace : Trace}
    {bytes : Bytes} (run : Runs (readExact size timeoutMs deadline) trace (.ret bytes)) :
    bytes.length = size ∧ received trace = bytes ∧ written trace = [] := by
  unfold readExact at run
  split at run
  · next hzero =>
      obtain ⟨rfl, hbytes⟩ := runs_ret_iff.mp run
      cases hbytes
      exact ⟨hzero.symm, rfl, rfl⟩
  · obtain ⟨answer, rest, rfl, hrest⟩ := returns_perform_bind_iff.mp run
    cases answer with
    | none => simp at hrest
    | some block =>
        obtain ⟨rfl, hbytes⟩ := runs_ret_iff.mp hrest
        cases hbytes
        exact ⟨block.property, by simp [received, Action.received], rfl⟩

/-- Ten bytes with the magic and the version are the header of a frame. -/
theorem encodeHeader_of_checks {header : Bytes} (hlength : header.length = 10)
    (hmagic : header.take 4 = MAGIC) (hversion : (header.getD 4 0).toNat = 2) :
    encodeHeader (header.getD 5 0) (beNat (header.drop 6)) = header := by
  match header, hlength with
  | [b0, b1, b2, b3, b4, b5, b6, b7, b8, b9], _ =>
      have hsize : beBytes 4 (beNat [b6, b7, b8, b9]) = [b6, b7, b8, b9] :=
        beBytes_beNat [b6, b7, b8, b9]
      have hfront : [b0, b1, b2, b3] = MAGIC := hmagic
      have hb4 : b4 = 2 := UInt8.toNat_inj.mp hversion
      calc encodeHeader b5 (beNat [b6, b7, b8, b9])
          = MAGIC ++ [2, b5] ++ beBytes 4 (beNat [b6, b7, b8, b9]) := rfl
        _ = [b0, b1, b2, b3, b4, b5, b6, b7, b8, b9] := by rw [hsize, ← hfront, hb4]; rfl

/-- A length that passes the checks is the number in the header. -/
theorem getInt_of_checks (bytes : Bytes) (hlength : bytes.length = 4) (hsign : ¬ getInt bytes < 0) :
    getInt bytes = beNat bytes := by
  have hlt := beNat_lt bytes
  rw [hlength] at hlt
  unfold getInt wrapInt at *
  rw [Int.bmod_def] at *
  split at hsign <;> split <;> omega

/-- A frame that `readFrame` returns is spelled by the bytes it has read. -/
theorem readFrame_returns {timeoutMs : Int} {trace : Trace} {frame : Frame}
    (run : Runs (readFrame timeoutMs) trace (.ret frame)) :
    ∃ byte : UInt8, frame.type = byte.toNat ∧ frame.payload.length ≤ 65536 ∧
      received trace = encodeFrame ⟨byte, frame.payload⟩ ∧ written trace = [] := by
  obtain ⟨deadline, clock, reads, rfl, hclock, hreads⟩ := returns_bind_iff.mp run
  have hclock : received clock = [] ∧ written clock = [] := by
    unfold readDeadline at hclock
    split at hclock
    · obtain ⟨rfl, -⟩ := runs_ret_iff.mp hclock
      exact ⟨rfl, rfl⟩
    · obtain ⟨now, rest, rfl, hrest⟩ := returns_perform_bind_iff.mp hclock
      obtain ⟨rfl, -⟩ := runs_ret_iff.mp hrest
      exact ⟨rfl, rfl⟩
  obtain ⟨header, front, back, rfl, hheader, hback⟩ := returns_bind_iff.mp hreads
  obtain ⟨hheaderLength, hheaderReceived, hheaderWritten⟩ := readExact_returns hheader
  split at hback
  · simp at hback
  next hchecks =>
  dsimp only at hback
  split at hback
  · simp at hback
  next hlength =>
  rw [not_or, not_not, not_not] at hchecks
  rw [not_or] at hlength
  obtain ⟨payload, body, rest, rfl, hpayload, hrest⟩ := returns_bind_iff.mp hback
  obtain ⟨hpayloadLength, hpayloadReceived, hpayloadWritten⟩ := readExact_returns hpayload
  obtain ⟨rfl, hframe⟩ := runs_ret_iff.mp hrest
  cases hframe
  have hversion : (header.getD 4 0).toNat = 2 := by
    have hvalue := hchecks.2
    rw [and_0xff] at hvalue
    exact Int.ofNat_inj.mp hvalue
  have hsize := getInt_of_checks (header.drop 6) (by simp [hheaderLength, HEADER_SIZE])
    hlength.1
  have hmax := hlength.2
  rw [hsize] at hmax hpayloadLength
  rw [Int.toNat_natCast] at hpayloadLength
  have hencode := encodeHeader_of_checks hheaderLength hchecks.1 hversion
  refine ⟨header.getD 5 0, ?_, ?_, ?_, ?_⟩
  · rw [and_0xff]
  · unfold MAX_PAYLOAD at hmax
    change payload.length ≤ 65536
    omega
  · rw [received_append, received_append, received_append, hclock.1, hheaderReceived,
      hpayloadReceived, encodeFrame, hpayloadLength, hencode]
    simp [received]
  · rw [written_append, written_append, written_append, hclock.2, hheaderWritten,
      hpayloadWritten]
    rfl

section Evaluation

variable {σ : Type} {answer : (op : Op) → σ → Option (op.Res × σ)} {state start middle state' : σ}

theorem require_evaluates {condition : Bool} {message : String} (h : condition = true)
    (state : σ) : (require condition message).Evaluates answer state () state := by
  unfold require
  rw [if_pos h]
  exact Prog.evaluates_ret () state

theorem outputWrite_evaluates {bytes : Bytes}
    (h : Takes answer (-1) LONG_MAX_VALUE state bytes state') :
    (outputWrite bytes).Evaluates answer state () state' :=
  Prog.evaluates_perform_bind h (Prog.evaluates_ret () state')

theorem writeFrame_evaluates {type : Int} {payload : Bytes} (hsize : payload.length ≤ 65536)
    (hheader : Takes answer (-1) LONG_MAX_VALUE state
      (encodeHeader (toByte type) payload.length) middle)
    (hpayload : Takes answer (-1) LONG_MAX_VALUE middle payload state') :
    (writeFrame type payload).Evaluates answer state () state' := by
  have hsmall : decide ((payload.length : Int) ≤ MAX_PAYLOAD) = true := by
    rw [decide_eq_true_iff, MAX_PAYLOAD]
    omega
  unfold writeFrame
  rw [makeHeader_eq]
  exact (require_evaluates hsmall state).bind
    ((outputWrite_evaluates hheader).bind (outputWrite_evaluates hpayload))

theorem readExact_evaluates {bytes : Bytes} {size : Nat} {timeoutMs : Int} {deadline : Time}
    (hsize : bytes.length = size) (hempty : bytes = [] → state' = state)
    (hbytes : bytes ≠ [] → Delivers answer timeoutMs deadline state bytes state') :
    (readExact size timeoutMs deadline).Evaluates answer state bytes state' := by
  subst hsize
  unfold readExact
  cases bytes with
  | nil =>
      rw [hempty rfl]
      exact Prog.evaluates_ret [] state
  | cons first rest =>
      rw [if_neg (by simp)]
      exact Prog.evaluates_perform_bind (hbytes (List.cons_ne_nil first rest) _ rfl)
        (Prog.evaluates_ret _ state')

theorem readFrame_evaluates {type : UInt8} {payload : Bytes} {timeoutMs : Int} {deadline : Time}
    (hsize : payload.length ≤ 65536)
    (hdeadline : (readDeadline timeoutMs).Evaluates answer state deadline start)
    (hheader : Delivers answer timeoutMs deadline start (encodeHeader type payload.length) middle)
    (hempty : payload = [] → state' = middle)
    (hpayload : payload ≠ [] → Delivers answer timeoutMs deadline middle payload state') :
    (readFrame timeoutMs).Evaluates answer state ⟨type.toNat, payload⟩ state' := by
  obtain ⟨hmagic, hversion, htype, hlength⟩ := encodeHeader_fields type payload.length
  have hcount : getInt ((encodeHeader type payload.length).drop 6) = payload.length := by
    have hvalue : beNat (beBytes 4 payload.length) = payload.length := beNat_beBytes (by omega)
    rw [hlength, getInt, wrapInt, hvalue, Int.bmod_def]
    split <;> omega
  unfold readFrame
  refine hdeadline.bind ((readExact_evaluates (encodeHeader_length _ _) (fun h => ?_)
    fun _ => hheader).bind ?_)
  · have hzero := congrArg List.length h
    simp at hzero
  rw [if_neg (by rw [hmagic, hversion]; decide)]
  dsimp only
  rw [hcount, if_neg (by rw [MAX_PAYLOAD]; omega), htype, and_0xff]
  exact (readExact_evaluates (Int.toNat_natCast _).symm hempty hpayload).bind
    (Prog.evaluates_ret _ state')

end Evaluation

end Framing

structure AuthenticatedChannel where
  sessionKey : Bytes
  sendKey : Bytes
  receiveKey : Bytes
  sendSequence : Int
  receiveSequence : Int
  serverSide : Bool
deriving DecidableEq

namespace AuthenticatedChannel

/-- The constructor. -/
def ofSessionKey (sessionKey : Bytes) (serverSide : Bool) : Program AuthenticatedChannel := do
  require (sessionKey.length = KEY_SIZE) "Failed requirement."
  let sendKey ← deriveDirectionalKey sessionKey
    (if serverSide then SERVER_TO_CLIENT_KDF_INFO else CLIENT_TO_SERVER_KDF_INFO)
  let receiveKey ← deriveDirectionalKey sessionKey
    (if serverSide then CLIENT_TO_SERVER_KDF_INFO else SERVER_TO_CLIENT_KDF_INFO)
  .ret ⟨sessionKey, sendKey, receiveKey, 0, 0, serverSide⟩

def mediaPassword (channel : AuthenticatedChannel) : Program Bytes :=
  deriveMediaPassword channel.sessionKey

/-- The channel after the call; the only field a call assigns is assigned last,
so a call that throws leaves the channel as it was. -/
def send (channel : AuthenticatedChannel) (type : Int) (payload : Bytes) :
    Program AuthenticatedChannel :=
  if channel.sendSequence = LONG_MAX_VALUE then .throw "Control sequence exhausted"
  else do
    require (wrapInt (payload.length + ENCRYPTED_OVERHEAD) ≤ MAX_PAYLOAD)
      "Message exceeds protocol limit"
    let sequence := makeSequence channel.sendSequence
    let wirePayloadSize := wrapInt (wrapInt (SEQUENCE_SIZE + payload.length) + GCM_TAG_SIZE)
    let header := makeHeader type wirePayloadSize
    let nonce ← makeNonce
      (if channel.serverSide then SERVER_NONCE_PREFIX else CLIENT_NONCE_PREFIX) sequence
    let encrypted ← encrypt channel.sendKey nonce header payload
    writeFrame type (sequence ++ encrypted)
    .ret { channel with sendSequence := wrapLong (channel.sendSequence + 1) }

/-- The checks and the decryption of a frame that has arrived. -/
def openFrame (channel : AuthenticatedChannel) (frame : Frame) :
    Program (Frame × AuthenticatedChannel) :=
  if frame.payload.length < ENCRYPTED_OVERHEAD then .throw "Truncated encrypted frame"
  else
    let sequenceBytes := frame.payload.take SEQUENCE_SIZE
    if getLong sequenceBytes ≠ channel.receiveSequence then .throw "Invalid control sequence"
    else do
      let ciphertextAndTag := frame.payload.drop SEQUENCE_SIZE
      let header := makeHeader frame.type frame.payload.length
      let nonce ← makeNonce
        (if channel.serverSide then CLIENT_NONCE_PREFIX else SERVER_NONCE_PREFIX) sequenceBytes
      let plaintext ← decrypt channel.receiveKey nonce header ciphertextAndTag
      .ret (⟨frame.type, plaintext⟩,
        { channel with receiveSequence := wrapLong (channel.receiveSequence + 1) })

def receive (channel : AuthenticatedChannel) (timeoutMs : Int) :
    Program (Frame × AuthenticatedChannel) :=
  if channel.receiveSequence = LONG_MAX_VALUE then .throw "Control sequence exhausted"
  else do
    let frame ← readFrame timeoutMs
    channel.openFrame frame

section Runs

variable {channel channel' : AuthenticatedChannel} {type : Int} {payload : Bytes}
  {timeoutMs : Int} {trace : Trace}

/-- The counters of a channel count up from zero and stop at `Long.MAX_VALUE`. -/
structure InRange (channel : AuthenticatedChannel) : Prop where
  sendSequence : 0 ≤ channel.sendSequence ∧ channel.sendSequence ≤ LONG_MAX_VALUE
  receiveSequence : 0 ≤ channel.receiveSequence ∧ channel.receiveSequence ≤ LONG_MAX_VALUE

/-- A send that passes its checks: encrypt, write, advance. -/
theorem send_eq (type : Int) (hrange : channel.InRange) (hsequence : channel.sendSequence ≠ LONG_MAX_VALUE)
    (hsize : wrapInt (payload.length + ENCRYPTED_OVERHEAD) ≤ MAX_PAYLOAD) :
    channel.send type payload = (do
      let encrypted ← encrypt channel.sendKey
        (gcmNonce channel.serverSide channel.sendSequence.toNat)
        (encodeHeader (toByte type) (payload.length + 24)) payload
      writeFrame type (beBytes 8 channel.sendSequence.toNat ++ encrypted)
      .ret { channel with sendSequence := channel.sendSequence + 1 }) := by
  have hfield : makeSequence channel.sendSequence = beBytes 8 channel.sendSequence.toNat :=
    putLong_eq hrange.sendSequence.1 hrange.sendSequence.2
  unfold send require
  rw [if_neg hsequence, if_pos (decide_eq_true hsize), Prog.ret_bind]
  dsimp only
  rw [makeHeader_wire, hfield, makeNonce_eq _ (beBytes_length 8 _), Prog.ret_bind,
    wrapLong_succ hrange.sendSequence.1 hrange.sendSequence.2 hsequence]
  rfl

/-- A send that returns has sealed its payload under the channel's next nonce,
written the frame and advanced the counter. -/
theorem send_returns (hrange : channel.InRange)
    (run : Runs (channel.send type payload) trace (.ret channel')) :
    channel.sendSequence ≠ LONG_MAX_VALUE ∧ payload.length + 24 ≤ 65536 ∧
      channel' = { channel with sendSequence := channel.sendSequence + 1 } ∧
      ∃ (encrypted : Block (payload.length + 16)) (sent : Trace),
        trace = ⟨.gcmEncrypt channel.sendKey
            (gcmNonce channel.serverSide channel.sendSequence.toNat)
            (encodeHeader (toByte type) (payload.length + 24)) payload, some encrypted⟩ :: sent ∧
        written sent =
          encodeFrame ⟨toByte type, sealedPayload channel.sendSequence.toNat encrypted.val⟩ ∧
        received sent = [] := by
  by_cases hsequence : channel.sendSequence = LONG_MAX_VALUE
  · simp [send, hsequence] at run
  by_cases hsize : wrapInt (payload.length + ENCRYPTED_OVERHEAD) ≤ MAX_PAYLOAD
  swap
  · simp [send, hsequence, require, hsize] at run
  rw [send_eq type hrange hsequence hsize] at run
  obtain ⟨encrypted, front, rest, rfl, hencrypt, hrest⟩ := returns_bind_iff.mp run
  obtain ⟨answer, tail, rfl, htail⟩ := returns_perform_bind_iff.mp hencrypt
  cases answer with
  | none => simp at htail
  | some block =>
      obtain ⟨rfl, hblock⟩ := runs_ret_iff.mp htail
      cases hblock
      obtain ⟨_, sent, final, rfl, hwrite, hfinal⟩ := returns_bind_iff.mp hrest
      obtain ⟨hshort, hwritten, hreceived⟩ := writeFrame_returns hwrite
      obtain ⟨rfl, hchannel⟩ := runs_ret_iff.mp hfinal
      cases hchannel
      refine ⟨hsequence, ?_, rfl, block, sent, ?_, hwritten, hreceived⟩
      · rw [List.length_append, beBytes_length, block.property] at hshort
        omega
      · simp only [List.append_nil, List.singleton_append]


theorem cipherDoFinal_append (key nonce aad ciphertext : Bytes) {tag : Bytes}
    (htag : tag.length = 16) :
    cipherDoFinal key nonce aad (ciphertext ++ tag) =
      ask (.gcmDecrypt key nonce aad ciphertext tag) := by
  have hsplit : (ciphertext ++ tag).length - GCM_TAG_SIZE = ciphertext.length := by
    rw [List.length_append, htag, GCM_TAG_SIZE]
    omega
  unfold cipherDoFinal
  dsimp only
  rw [hsplit, List.take_left, List.drop_left]

/-- On a frame cut into its fields: compare the sequence number, then decrypt
under the nonce of the other direction. -/
theorem openFrame_sealed (hrange : channel.InRange) {sequence ciphertext tag : Bytes}
    (hsequence : sequence.length = 8) (htag : tag.length = 16) :
    channel.openFrame ⟨type, sequence ++ (ciphertext ++ tag)⟩ =
      if beNat sequence ≠ channel.receiveSequence.toNat then .throw "Invalid control sequence"
      else (do
        let plaintext ← decrypt channel.receiveKey
          (gcmNonce (!channel.serverSide) channel.receiveSequence.toNat)
          (encodeHeader (toByte type) (ciphertext.length + 24)) (ciphertext ++ tag)
        .ret (⟨type, plaintext⟩,
          { channel with receiveSequence := wrapLong (channel.receiveSequence + 1) })) := by
  have hsize : (sequence ++ (ciphertext ++ tag)).length = ciphertext.length + 24 := by
    simp only [List.length_append, hsequence, htag]
    omega
  have htake : (sequence ++ (ciphertext ++ tag)).take SEQUENCE_SIZE = sequence := by
    rw [SEQUENCE_SIZE, ← hsequence, List.take_left]
  have hdrop : (sequence ++ (ciphertext ++ tag)).drop SEQUENCE_SIZE = ciphertext ++ tag := by
    rw [SEQUENCE_SIZE, ← hsequence, List.drop_left]
  unfold openFrame
  dsimp only
  rw [hsize, htake, hdrop, makeHeader_eq,
    if_neg (by simp only [ENCRYPTED_OVERHEAD, SEQUENCE_SIZE, GCM_TAG_SIZE]; omega)]
  have hiff := getLong_eq_iff hsequence hrange.receiveSequence.1 hrange.receiveSequence.2
  by_cases hnumber : beNat sequence = channel.receiveSequence.toNat
  · rw [if_neg (not_not.mpr (hiff.mpr hnumber)), if_neg (not_not.mpr hnumber)]
    have hstart : (if channel.serverSide then CLIENT_NONCE_PREFIX else SERVER_NONCE_PREFIX) =
        if (!channel.serverSide) then SERVER_NONCE_PREFIX else CLIENT_NONCE_PREFIX := by
      cases channel.serverSide <;> rfl
    have hfield : beBytes 8 channel.receiveSequence.toNat = sequence := by
      rw [← hnumber, ← hsequence, beBytes_beNat]
    rw [hstart, makeNonce_eq _ hsequence, Prog.ret_bind, gcmNonce, hfield]
  · rw [if_pos (fun h => hnumber (hiff.mp h)), if_pos hnumber]

/-- A frame that `receive` returns is the decryption, under the next nonce and
with its own header as associated data, of the frame that was read. -/
theorem receive_returns (hrange : channel.InRange) {frame : Frame}
    (run : Runs (channel.receive timeoutMs) trace (.ret (frame, channel'))) :
    channel.receiveSequence ≠ LONG_MAX_VALUE ∧
      channel' = { channel with receiveSequence := channel.receiveSequence + 1 } ∧
      ∃ (byte : UInt8) (ciphertext tag : Bytes) (arrival : Trace),
        frame.type = byte.toNat ∧ tag.length = 16 ∧
        received arrival = encodeFrame
          ⟨byte, sealedPayload channel.receiveSequence.toNat (ciphertext ++ tag)⟩ ∧
        written arrival = [] ∧
        trace = arrival ++ [⟨.gcmDecrypt channel.receiveKey
          (gcmNonce (!channel.serverSide) channel.receiveSequence.toNat)
          (encodeHeader byte (ciphertext.length + 24)) ciphertext tag, some frame.payload⟩] := by
  unfold receive at run
  split at run
  · simp at run
  next hnumber =>
  obtain ⟨wire, arrival, rest, rfl, harrival, hrest⟩ := returns_bind_iff.mp run
  obtain ⟨byte, htype, -, hreceived, hwritten⟩ := readFrame_returns harrival
  obtain ⟨wireType, wirePayload⟩ := wire
  obtain rfl : wireType = byte.toNat := htype
  by_cases hsize : wirePayload.length < ENCRYPTED_OVERHEAD
  · unfold openFrame at hrest
    rw [if_pos hsize] at hrest
    simp at hrest
  obtain ⟨sequence, ciphertext, tag, hsequence, htag, rfl⟩ :=
    exists_sealed_fields wirePayload
      (by simpa [ENCRYPTED_OVERHEAD, SEQUENCE_SIZE, GCM_TAG_SIZE] using hsize)
  rw [openFrame_sealed hrange hsequence htag] at hrest
  split at hrest
  · simp at hrest
  next hfield =>
  rw [not_not] at hfield
  obtain ⟨plaintext, front, back, rfl, hdecrypt, hback⟩ := returns_bind_iff.mp hrest
  rw [decrypt, cipherDoFinal_append _ _ _ _ htag] at hdecrypt
  obtain ⟨answer, tail, rfl, htail⟩ := returns_perform_bind_iff.mp hdecrypt
  cases answer with
  | none => simp at htail
  | some value =>
      obtain ⟨rfl, hvalue⟩ := runs_ret_iff.mp htail
      cases hvalue
      obtain ⟨rfl, hresult⟩ := runs_ret_iff.mp hback
      cases hresult
      rw [wrapLong_succ hrange.receiveSequence.1 hrange.receiveSequence.2 hnumber]
      refine ⟨hnumber, rfl, byte, ciphertext, tag, arrival, rfl, htag, ?_, hwritten, ?_⟩
      · rw [hreceived, sealedPayload, ← hfield, ← hsequence, beBytes_beNat]
      · rw [toByte_natCast]
        rfl

theorem InRange.send (hrange : channel.InRange)
    (run : Runs (channel.send type payload) trace (.ret channel')) : channel'.InRange := by
  obtain ⟨hne, _, rfl, _⟩ := send_returns hrange run
  refine ⟨⟨?_, ?_⟩, hrange.receiveSequence⟩
  · exact Int.add_nonneg hrange.sendSequence.1 (by norm_num)
  · exact Int.add_one_le_of_lt (lt_of_le_of_ne hrange.sendSequence.2 hne)

theorem InRange.receive (hrange : channel.InRange) {frame : Frame}
    (run : Runs (channel.receive timeoutMs) trace (.ret (frame, channel'))) : channel'.InRange := by
  obtain ⟨hne, rfl, _⟩ := receive_returns hrange run
  refine ⟨hrange.sendSequence, ⟨?_, ?_⟩⟩
  · exact Int.add_nonneg hrange.receiveSequence.1 (by norm_num)
  · exact Int.add_one_le_of_lt (lt_of_le_of_ne hrange.receiveSequence.2 hne)

theorem ofSessionKey_returns {sessionKey : Bytes} {serverSide : Bool}
    (run : Runs (ofSessionKey sessionKey serverSide) trace (.ret channel)) :
    channel.serverSide = serverSide ∧ channel.sendSequence = 0 ∧ channel.receiveSequence = 0 := by
  obtain ⟨_, _, _, rfl, _, hrest⟩ := returns_bind_iff.mp run
  obtain ⟨sendKey, _, _, rfl, _, hrest⟩ := returns_bind_iff.mp hrest
  obtain ⟨receiveKey, _, _, rfl, _, hrest⟩ := returns_bind_iff.mp hrest
  obtain ⟨-, hchannel⟩ := runs_ret_iff.mp hrest
  cases hchannel
  exact ⟨rfl, rfl, rfl⟩

end Runs

end AuthenticatedChannel

end OpenCam.Android
