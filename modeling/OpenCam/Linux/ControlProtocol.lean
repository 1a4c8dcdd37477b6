import OpenCam.Control.Operations
import OpenCam.Control.Wire

/-!
`control_protocol.cpp`: framing, key derivation and the authenticated channel
of the controller. OpenSSL's calls and the socket transfers are operations;
everything the file itself computes is written out.
-/

namespace OpenCam.Linux

open Octets Interaction Control

def MAGIC : Bytes := [0x4f, 0x43, 0x41, 0x4d]
def VERSION : UInt8 := 2
def MAX_PAYLOAD : Nat := 64 * 1024
abbrev HEADER_SIZE : Nat := 10
def NONCE_SIZE : Nat := 32
def GCM_TAG_SIZE : Nat := 16
def ENCRYPTED_OVERHEAD : Nat := 8 + GCM_TAG_SIZE

def SERVER_NONCE_PREFIX : Bytes := [0x53, 0x52, 0x56, 0x52]
def CLIENT_NONCE_PREFIX : Bytes := [0x43, 0x4c, 0x4e, 0x54]

def SESSION_KDF_INFO : Bytes := ascii "OpenCam control v2 session"
def SERVER_TO_CLIENT_KDF_INFO : Bytes := ascii "OpenCam control v2 server-to-client"
def CLIENT_TO_SERVER_KDF_INFO : Bytes := ascii "OpenCam control v2 client-to-server"
def MEDIA_CREDENTIAL_DOMAIN : Bytes := ascii "OpenCam RTSP credential v2"

-- The domains that `handleClient` passes to `makeProof`.
def CLIENT_PROOF_DOMAIN : Bytes := ascii "OpenCam client proof v2"
def SERVER_PROOF_DOMAIN : Bytes := ascii "OpenCam server proof v2"

/-! `enum class Type : std::uint8_t`; a received type may be any byte. -/

def SERVER_HELLO : UInt8 := 1
def CLIENT_AUTH : UInt8 := 2
def SERVER_AUTH : UInt8 := 3
def DESCRIPTOR : UInt8 := 4
def ACTIVATION : UInt8 := 5
def ERROR_REPORT : UInt8 := 6

def TIME_POINT_MAX : Time := 2 ^ 63 - 1

section Encoding

/-- The loop of `sequenceBytes`, with `remaining = i + 1`. -/
def sequenceBytesLoop : Nat → UInt64 → Bytes → Bytes
  | 0, _, result => result
  | i + 1, sequence, result =>
      sequenceBytesLoop i (sequence >>> 8) (result.set i (sequence &&& 0xff).toUInt8)

def sequenceBytes (sequence : UInt64) : Bytes :=
  sequenceBytesLoop 8 sequence (List.replicate 8 0)

def makeHeader (type : UInt8) (payloadSize : Nat) : Bytes :=
  let size := UInt32.ofNat payloadSize
  MAGIC ++ [VERSION, type, (size >>> 24).toUInt8, (size >>> 16).toUInt8, (size >>> 8).toUInt8,
    size.toUInt8]

def makeGcmNonce (noncePrefix sequence : Bytes) : Bytes := noncePrefix ++ sequence

/-- `for (const auto byte : sequence) received = (received << 8) | byte;` -/
def receivedSequence (sequence : Bytes) : UInt64 :=
  sequence.foldl (fun value byte => (value <<< 8) ||| byte.toUInt64) 0

def headerSize (header : Block HEADER_SIZE) : UInt32 :=
  ((header.val.getD 6 0).toUInt32 <<< 24) ||| ((header.val.getD 7 0).toUInt32 <<< 16) |||
    ((header.val.getD 8 0).toUInt32 <<< 8) ||| (header.val.getD 9 0).toUInt32

def digits : Bytes := ascii "0123456789abcdef"

def encodeHex (data : Bytes) : Bytes :=
  data.flatMap fun (byte : UInt8) =>
    [digits.getD (byte >>> 4).toNat 0, digits.getD (byte &&& 0x0f).toNat 0]

def nibble (c : UInt8) : Int :=
  if 48 ≤ c ∧ c ≤ 57 then c.toNat - 48
  else if 97 ≤ c ∧ c ≤ 102 then c.toNat - 97 + 10
  else if 65 ≤ c ∧ c ≤ 70 then c.toNat - 65 + 10
  else -1

/-- The loop of `decodeHex` from an index on. The answer comes with what is in the
output then. -/
def decodeHexLoop (text : Bytes) : Nat → Nat → Bytes → Bool × Bytes
  | 0, _, output => (true, output)
  | remaining + 1, i, output =>
      let high := nibble (text.getD (i * 2) 0)
      let low := nibble (text.getD (i * 2 + 1) 0)
      if high < 0 ∨ low < 0 then (false, output)
      else decodeHexLoop text remaining (i + 1)
        (output.set i (UInt8.ofNat (high.toNat <<< 4 ||| low.toNat)))

def decodeHex (text output : Bytes) (size : Nat) : Bool × Bytes :=
  if text.length ≠ size * 2 then (false, output) else decodeHexLoop text size 0 output

theorem sequenceBytes_eq (sequence : UInt64) :
    sequenceBytes sequence = beBytes 8 sequence.toNat := by
  have hbyte : ∀ value : UInt64, (value &&& 0xff).toUInt8 = UInt8.ofNat value.toNat := by
    intro value
    apply UInt8.toNat_inj.mp
    rw [UInt64.toNat_toUInt8, UInt64.toNat_and, UInt8.toNat_ofNat',
      show (0xff : UInt64).toNat = 2 ^ 8 - 1 from rfl, Nat.and_two_pow_sub_one_eq_mod, Nat.mod_mod]
  simp only [sequenceBytes, sequenceBytesLoop, List.replicate, hbyte]
  simp [beBytes, UInt64.toNat_shiftRight, Nat.shiftRight_eq_div_pow, Nat.div_div_eq_div_mul]

theorem receivedSequence_eq {sequence : Bytes} (h : sequence.length ≤ 8) :
    (receivedSequence sequence).toNat = beNat sequence := foldl_uint64 sequence h

theorem makeHeader_eq (type : UInt8) (payloadSize : Nat) :
    makeHeader type payloadSize = encodeHeader type payloadSize := by
  have hbytes : (UInt32.ofNat payloadSize >>> 24).toUInt8 = UInt8.ofNat (payloadSize / 256 ^ 3) ∧
      (UInt32.ofNat payloadSize >>> 16).toUInt8 = UInt8.ofNat (payloadSize / 256 ^ 2) ∧
      (UInt32.ofNat payloadSize >>> 8).toUInt8 = UInt8.ofNat (payloadSize / 256 ^ 1) ∧
      (UInt32.ofNat payloadSize).toUInt8 = UInt8.ofNat (payloadSize / 256 ^ 0) := by
    simp only [← UInt8.toNat_inj, UInt32.toNat_toUInt8, UInt32.toNat_shiftRight,
      UInt8.toNat_ofNat', UInt32.toNat_ofNat', UInt32.reduceToNat, Nat.reduceMod,
      Nat.shiftRight_eq_div_pow]
    omega
  obtain ⟨h3, h2, h1, h0⟩ := hbytes
  simp only [makeHeader, encodeHeader, beBytes, h3, h2, h1, h0]
  rfl

theorem makeGcmNonce_eq (serverSide : Bool) (sequence : UInt64) :
    makeGcmNonce (if serverSide then SERVER_NONCE_PREFIX else CLIENT_NONCE_PREFIX)
      (sequenceBytes sequence) = gcmNonce serverSide sequence.toNat := by
  rw [sequenceBytes_eq]
  cases serverSide <;> rfl

theorem headerSize_eq (header : Block HEADER_SIZE) :
    (headerSize header).toNat = beNat (header.val.drop 6) := by
  obtain ⟨bytes, hlength⟩ := header
  match bytes, hlength with
  | [b0, b1, b2, b3, b4, b5, b6, b7, b8, b9], _ =>
    have hfit : ∀ (byte : UInt8) (count : Nat), count ≤ 24 →
        byte.toNat <<< count % 2 ^ 32 = byte.toNat <<< count := by
      intro byte count hcount
      apply Nat.mod_eq_of_lt
      rw [Nat.shiftLeft_eq]
      calc byte.toNat * 2 ^ count < 2 ^ 8 * 2 ^ count := by
            gcongr
            exact byte.toNat_lt
        _ = 2 ^ (8 + count) := (pow_add 2 8 count).symm
        _ ≤ 2 ^ 32 := Nat.pow_le_pow_right (by norm_num) (by omega)
    rw [show List.drop 6 [b0, b1, b2, b3, b4, b5, b6, b7, b8, b9] = [b6, b7, b8, b9] from rfl,
      ← or_of_shifts]
    simp only [headerSize, UInt32.toNat_or, UInt32.toNat_shiftLeft, UInt8.toNat_toUInt32,
      UInt32.reduceToNat, Nat.reduceMod]
    rw [hfit _ 24 (by norm_num), hfit _ 16 (by norm_num), hfit _ 8 (by norm_num)]
    rfl

end Encoding

section Framing

def deadlineFor (timeoutMs : Int) : Program Time :=
  if timeoutMs < 0 then .ret TIME_POINT_MAX
  else do
    let now ← ask .now
    .ret (now + timeoutMs * 1000000)

def sendFrame (type : UInt8) (payload : Bytes) (timeoutMs : Int) : Program Bool :=
  if payload.length > MAX_PAYLOAD then .ret false
  else do
    let header := makeHeader type payload.length
    let deadline ← deadlineFor timeoutMs
    match ← ask (.writeAll header timeoutMs deadline) with
    | false => .ret false
    | true =>
        if payload.isEmpty then .ret true
        else ask (.writeAll payload timeoutMs deadline)

/-- What follows the ten header bytes: the checks, then the payload. -/
def receivePayload (header : Block HEADER_SIZE) (timeoutMs : Int) (deadline : Time) :
    Program (Option Frame) :=
  if header.val.take 4 ≠ MAGIC ∨ header.val.getD 4 0 ≠ VERSION then .ret none
  else
    let size := headerSize header
    if size.toNat > MAX_PAYLOAD then .ret none
    else if size = 0 then .ret (some ⟨header.val.getD 5 0, []⟩)
    else do
      match ← ask (.readAll size.toNat timeoutMs deadline) with
      | none => .ret none
      | some payload => .ret (some ⟨header.val.getD 5 0, payload.val⟩)

def receiveFrame (timeoutMs : Int) : Program (Option Frame) := do
  let deadline ← deadlineFor timeoutMs
  match ← ask (.readAll HEADER_SIZE timeoutMs deadline) with
  | none => .ret none
  | some header => receivePayload header timeoutMs deadline

theorem deadlineFor_returns {timeoutMs : Int} {trace : Trace} {deadline : Time}
    (run : Runs (deadlineFor timeoutMs) trace (.ret deadline)) :
    written trace = [] ∧ received trace = [] := by
  unfold deadlineFor at run
  split at run
  · obtain ⟨rfl, _⟩ := runs_ret_iff.mp run
    exact ⟨rfl, rfl⟩
  · obtain ⟨now, rest, rfl, hrest⟩ := returns_perform_bind_iff.mp run
    obtain ⟨rfl, _⟩ := runs_ret_iff.mp hrest
    exact ⟨rfl, rfl⟩

/-- A completed `sendFrame` has written its frame and nothing else. -/
theorem sendFrame_returns {type : UInt8} {payload : Bytes} {timeoutMs : Int} {trace : Trace}
    (run : Runs (sendFrame type payload timeoutMs) trace (.ret true)) :
    payload.length ≤ 65536 ∧ written trace = encodeFrame ⟨type, payload⟩ ∧ received trace = [] := by
  unfold sendFrame at run
  split at run
  · simp at run
  next hsize =>
  obtain ⟨deadline, clock, writes, rfl, hclock, hwrites⟩ := returns_bind_iff.mp run
  obtain ⟨hclockWritten, hclockReceived⟩ := deadlineFor_returns hclock
  obtain ⟨sent, rest, rfl, hrest⟩ := returns_perform_bind_iff.mp hwrites
  rw [written_append, received_append, hclockWritten, hclockReceived, makeHeader_eq]
  refine ⟨by simpa [MAX_PAYLOAD] using hsize, ?_⟩
  cases sent with
  | false => simp at hrest
  | true =>
      dsimp only at hrest
      split at hrest
      · next hempty =>
          obtain ⟨rfl, -⟩ := runs_ret_iff.mp hrest
          obtain rfl := List.isEmpty_iff.mp hempty
          simp [written, received, Action.written, Action.received, encodeFrame]
      · obtain rfl := returns_perform_iff.mp hrest
        simp [written, received, Action.written, Action.received, encodeFrame]

theorem sendFrame_performs (type : UInt8) (payload : Bytes) (timeoutMs : Int) :
    (sendFrame type payload timeoutMs).Performs Op.IsTransfer := by
  unfold sendFrame deadlineFor
  split
  · trivial
  · refine Prog.Performs.bind ?_ ?_
    · split
      · trivial
      · exact ⟨trivial, fun _ => trivial⟩
    · intro deadline
      refine ⟨trivial, fun sent => ?_⟩
      cases sent
      · trivial
      · change Prog.Performs _ (if _ then _ else _)
        split
        · trivial
        · exact ⟨trivial, fun _ => trivial⟩


/-- Ten bytes with the magic and the version are the header of a frame. -/
theorem encodeHeader_of_checks (header : Block HEADER_SIZE) (hmagic : header.val.take 4 = MAGIC)
    (hversion : header.val.getD 4 0 = VERSION) :
    encodeHeader (header.val.getD 5 0) (headerSize header).toNat = header.val := by
  rw [headerSize_eq]
  obtain ⟨bytes, hlength⟩ := header
  match bytes, hlength with
  | [b0, b1, b2, b3, b4, b5, b6, b7, b8, b9], _ =>
      have hsize : beBytes 4 (beNat [b6, b7, b8, b9]) = [b6, b7, b8, b9] :=
        beBytes_beNat [b6, b7, b8, b9]
      have hfront : [b0, b1, b2, b3] = MAGIC := hmagic
      have hb4 : b4 = VERSION := hversion
      calc encodeHeader b5 (beNat [b6, b7, b8, b9])
          = MAGIC ++ [VERSION, b5] ++ beBytes 4 (beNat [b6, b7, b8, b9]) := rfl
        _ = [b0, b1, b2, b3, b4, b5, b6, b7, b8, b9] := by rw [hsize, ← hfront, hb4]; rfl

/-- What follows a header completes it to a frame. -/
theorem receivePayload_returns {header : Block HEADER_SIZE} {timeoutMs : Int} {deadline : Time}
    {trace : Trace} {frame : Frame}
    (run : Runs (receivePayload header timeoutMs deadline) trace (.ret (some frame))) :
    frame.payload.length ≤ 65536 ∧ header.val ++ received trace = encodeFrame frame ∧
      written trace = [] := by
  unfold receivePayload at run
  split at run
  · simp at run
  next hheader =>
  rw [not_or, not_not, not_not] at hheader
  have hencode := encodeHeader_of_checks header hheader.1 hheader.2
  dsimp only at run
  split at run
  · simp at run
  next hsize =>
  split at run
  · next hzero =>
      obtain ⟨rfl, hframe⟩ := runs_ret_iff.mp run
      cases hframe
      rw [hzero] at hencode
      exact ⟨by simp, congrArg (· ++ []) hencode.symm, rfl⟩
  · obtain ⟨answer, rest, rfl, hrest⟩ := returns_perform_bind_iff.mp run
    cases answer with
    | none => simp at hrest
    | some payload =>
        obtain ⟨rfl, hframe⟩ := runs_ret_iff.mp hrest
        cases hframe
        have hlength : payload.val.length = (headerSize header).toNat := payload.property
        refine ⟨?_, ?_, rfl⟩
        · rw [hlength]
          simpa [MAX_PAYLOAD] using hsize
        · rw [encodeFrame, hlength, hencode]
          simp [received, Action.received]

/-- A frame that `receiveFrame` returns is spelled by the bytes it has read. -/
theorem receiveFrame_returns {timeoutMs : Int} {trace : Trace} {frame : Frame}
    (run : Runs (receiveFrame timeoutMs) trace (.ret (some frame))) :
    frame.payload.length ≤ 65536 ∧ received trace = encodeFrame frame ∧ written trace = [] := by
  obtain ⟨deadline, clock, reads, rfl, hclock, hreads⟩ := returns_bind_iff.mp run
  obtain ⟨hclockWritten, hclockReceived⟩ := deadlineFor_returns hclock
  obtain ⟨answer, rest, rfl, hrest⟩ := returns_perform_bind_iff.mp hreads
  cases answer with
  | none => simp at hrest
  | some header =>
      obtain ⟨hlength, hreceived, hwritten⟩ := receivePayload_returns hrest
      refine ⟨hlength, ?_, ?_⟩
      · rw [received_append, hclockReceived, ← hreceived]
        rfl
      · rw [written_append, hclockWritten]
        exact hwritten

section Evaluation

variable {σ : Type} {answer : (op : Op) → σ → Option (op.Res × σ)} {state start middle state' : σ}
  {timeoutMs : Int} {deadline : Time}

theorem sendFrame_evaluates {type : UInt8} {payload : Bytes} (hsize : payload.length ≤ 65536)
    (hdeadline : (deadlineFor timeoutMs).Evaluates answer state deadline start)
    (hheader : Takes answer timeoutMs deadline start (encodeHeader type payload.length) middle)
    (hempty : payload = [] → state' = middle)
    (hpayload : payload ≠ [] → Takes answer timeoutMs deadline middle payload state') :
    (sendFrame type payload timeoutMs).Evaluates answer state true state' := by
  unfold sendFrame
  rw [if_neg (by simp only [MAX_PAYLOAD]; omega)]
  dsimp only
  rw [makeHeader_eq]
  refine hdeadline.bind (Prog.evaluates_perform_bind hheader ?_)
  dsimp only
  cases payload with
  | nil =>
      rw [hempty rfl]
      exact Prog.evaluates_ret true middle
  | cons first rest => exact Prog.evaluates_perform (hpayload (List.cons_ne_nil first rest))

theorem receiveFrame_evaluates {type : UInt8} {payload : Bytes} (hsize : payload.length ≤ 65536)
    (hdeadline : (deadlineFor timeoutMs).Evaluates answer state deadline start)
    (hheader : Delivers answer timeoutMs deadline start (encodeHeader type payload.length) middle)
    (hempty : payload = [] → state' = middle)
    (hpayload : payload ≠ [] → Delivers answer timeoutMs deadline middle payload state') :
    (receiveFrame timeoutMs).Evaluates answer state (some ⟨type, payload⟩) state' := by
  obtain ⟨header, hvalue⟩ : ∃ header : Block HEADER_SIZE,
      header.val = encodeHeader type payload.length := ⟨⟨_, encodeHeader_length _ _⟩, rfl⟩
  obtain ⟨hmagic, hversion, htype, hlength⟩ := encodeHeader_fields type payload.length
  have hcount : (headerSize header).toNat = payload.length := by
    rw [headerSize_eq, hvalue, hlength, beNat_beBytes (by omega)]
  unfold receiveFrame
  refine hdeadline.bind (Prog.evaluates_call (hheader _ (encodeHeader_length _ _)) ?_)
  obtain rfl : header = ⟨encodeHeader type payload.length, encodeHeader_length _ _⟩ :=
    Subtype.ext hvalue
  change (receivePayload ⟨encodeHeader type payload.length, encodeHeader_length _ _⟩ timeoutMs
    deadline).Evaluates answer middle _ state'
  unfold receivePayload
  rw [if_neg (by simpa using ⟨hmagic, hversion⟩)]
  dsimp only
  rw [if_neg (by rw [hcount]; simp only [MAX_PAYLOAD]; omega), htype]
  split
  · next hzero =>
      have hnil : payload = [] := by
        rw [← List.length_eq_zero_iff, ← hcount, hzero]
        rfl
      rw [hempty hnil, hnil]
      exact Prog.evaluates_ret _ middle
  · next hzero =>
      have hsome : payload ≠ [] := by
        rintro rfl
        exact hzero (UInt32.toNat_inj.mp hcount)
      exact Prog.evaluates_perform_bind (hpayload hsome _ hcount.symm) (Prog.evaluates_ret _ _)

end Evaluation

theorem receiveFrame_reads (timeoutMs : Int) :
    (receiveFrame timeoutMs).Performs Op.IsReading := by
  unfold receiveFrame deadlineFor
  refine Prog.Performs.bind ?_ fun deadline => ⟨trivial, fun answer => ?_⟩
  · split
    · trivial
    · exact ⟨trivial, fun _ => trivial⟩
  · cases answer with
    | none => trivial
    | some header =>
        change Prog.Performs _ (receivePayload header timeoutMs deadline)
        unfold receivePayload
        dsimp only
        split_ifs
        · trivial
        · trivial
        · trivial
        · refine ⟨trivial, fun answer => ?_⟩
          cases answer <;> trivial

theorem receiveFrame_performs (timeoutMs : Int) :
    (receiveFrame timeoutMs).Performs Op.IsTransfer :=
  (receiveFrame_reads timeoutMs).mono fun _ => Op.IsReading.transfer

end Framing

section Derivation

def randomSecret : Program (Option (Block 32)) := ask .randBytes

def hmac (key input : Bytes) : Program (Option (Block 32)) := ask (.hmac key input)

def hkdfExpand (prk : Block 32) (info : Bytes) : Program (Option (Block 32)) :=
  ask (.hkdfExpand prk.val (cString info))

def hkdfExtractAndExpand (secret serverNonce clientNonce : Block 32) (info : Bytes) :
    Program (Option (Block 32)) :=
  ask (.hkdfExtractAndExpand (serverNonce.val ++ clientNonce.val) secret.val (cString info))

/-- Ciphertext and tag. -/
def encryptGcm (key : Block 32) (nonce aad plaintext : Bytes) :
    Program (Option (Block (plaintext.length + 16))) :=
  ask (.gcmEncrypt key.val nonce aad plaintext)

def decryptGcm (key : Block 32) (nonce aad ciphertext tag : Bytes) : Program (Option Bytes) :=
  ask (.gcmDecrypt key.val nonce aad ciphertext tag)

def deriveSessionKey (secret serverNonce clientNonce : Block 32) : Program (Option (Block 32)) :=
  hkdfExtractAndExpand secret serverNonce clientNonce SESSION_KDF_INFO

def deriveMediaPassword (sessionKey : Block 32) : Program Bytes := do
  match ← hmac sessionKey.val MEDIA_CREDENTIAL_DOMAIN with
  | none => .ret []
  | some credential => .ret (encodeHex credential.val)

def makeProof (secret : Block 32) (domain : Bytes) (serverNonce clientNonce : Block 32) :
    Program (Option (Block 32)) :=
  hmac secret.val (domain ++ serverNonce.val ++ clientNonce.val)

def constantTimeEqual (left right : Bytes) : Program Bool := do
  let equal ← ask (.constantTimeEqual left right)
  .ret equal.val

end Derivation

structure AuthenticatedChannel where
  sendKey : Block 32
  receiveKey : Block 32
  sendSequence : UInt64
  receiveSequence : UInt64
  /-- True for Linux, false for Android. -/
  serverSide : Bool
deriving DecidableEq

namespace AuthenticatedChannel

/-- The constructor. -/
def ofSessionKey (sessionKey : Block 32) (serverSide : Bool) : Program AuthenticatedChannel := do
  let sendInfo := if serverSide then SERVER_TO_CLIENT_KDF_INFO else CLIENT_TO_SERVER_KDF_INFO
  let receiveInfo := if serverSide then CLIENT_TO_SERVER_KDF_INFO else SERVER_TO_CLIENT_KDF_INFO
  match ← hkdfExpand sessionKey sendInfo with
  | none => .throw "Failed to derive control-channel keys"
  | some sendKey =>
      match ← hkdfExpand sessionKey receiveInfo with
      | none => .throw "Failed to derive control-channel keys"
      | some receiveKey => .ret ⟨sendKey, receiveKey, 0, 0, serverSide⟩

/-- The result and the channel the call leaves. -/
def send (channel : AuthenticatedChannel) (type : UInt8) (payload : Bytes) (timeoutMs : Int) :
    Program (Bool × AuthenticatedChannel) :=
  if channel.sendSequence = 0xffffffffffffffff then .ret (false, channel)
  else if payload.length + ENCRYPTED_OVERHEAD > MAX_PAYLOAD then .ret (false, channel)
  else do
    let sequence := sequenceBytes channel.sendSequence
    let wirePayloadSize := sequence.length + (payload.length + GCM_TAG_SIZE)
    let header := makeHeader type wirePayloadSize
    let nonce := makeGcmNonce
      (if channel.serverSide then SERVER_NONCE_PREFIX else CLIENT_NONCE_PREFIX) sequence
    match ← encryptGcm channel.sendKey nonce header payload with
    | none => .ret (false, channel)
    | some encrypted =>
        match ← sendFrame type (sequence ++ encrypted.val) timeoutMs with
        | false => .ret (false, channel)
        | true => .ret (true, { channel with sendSequence := channel.sendSequence + 1 })

/-- The checks and the decryption of a frame that has arrived. -/
def openFrame (channel : AuthenticatedChannel) (wire : Frame) :
    Program (Option Frame × AuthenticatedChannel) :=
  if wire.payload.length < ENCRYPTED_OVERHEAD then .ret (none, channel)
  else
    let sequence := wire.payload.take 8
    if receivedSequence sequence ≠ channel.receiveSequence then .ret (none, channel)
    else do
      let ciphertextSize := wire.payload.length - sequence.length - GCM_TAG_SIZE
      let header := makeHeader wire.type wire.payload.length
      let nonce := makeGcmNonce
        (if channel.serverSide then CLIENT_NONCE_PREFIX else SERVER_NONCE_PREFIX) sequence
      let ciphertext := (wire.payload.drop sequence.length).take ciphertextSize
      let tag := (wire.payload.drop (sequence.length + ciphertextSize)).take GCM_TAG_SIZE
      match ← decryptGcm channel.receiveKey nonce header ciphertext tag with
      | none => .ret (none, channel)
      | some plaintext =>
          .ret (some ⟨wire.type, plaintext⟩,
            { channel with receiveSequence := channel.receiveSequence + 1 })

def receive (channel : AuthenticatedChannel) (timeoutMs : Int) :
    Program (Option Frame × AuthenticatedChannel) :=
  if channel.receiveSequence = 0xffffffffffffffff then .ret (none, channel)
  else do
    match ← receiveFrame timeoutMs with
    | none => .ret (none, channel)
    | some wire => channel.openFrame wire

section Runs

variable {channel channel' : AuthenticatedChannel} {type : UInt8} {payload : Bytes}
  {timeoutMs : Int} {trace : Trace}

/-- A send that passes its checks: encrypt, write, advance. -/
theorem send_eq (hsequence : channel.sendSequence ≠ 0xffffffffffffffff)
    (hsize : payload.length + 24 ≤ 65536) :
    channel.send type payload timeoutMs = (do
      match ← encryptGcm channel.sendKey
        (gcmNonce channel.serverSide channel.sendSequence.toNat)
        (encodeHeader type (payload.length + 24)) payload with
      | none => .ret (false, channel)
      | some encrypted =>
          match ← sendFrame type (beBytes 8 channel.sendSequence.toNat ++ encrypted.val)
            timeoutMs with
          | false => .ret (false, channel)
          | true => .ret (true, { channel with sendSequence := channel.sendSequence + 1 })) := by
  have hsizes : 8 + (payload.length + GCM_TAG_SIZE) = payload.length + 24 := by
    simp only [GCM_TAG_SIZE]
    omega
  unfold send
  rw [if_neg hsequence,
    if_neg (by simp only [ENCRYPTED_OVERHEAD, GCM_TAG_SIZE, MAX_PAYLOAD]; omega)]
  dsimp only
  rw [makeGcmNonce_eq, makeHeader_eq, sequenceBytes_eq, beBytes_length, hsizes]

/-- A send that reports success has sealed its payload under the channel's
next nonce, written the frame and advanced the counter. -/
theorem send_returns_true
    (run : Runs (channel.send type payload timeoutMs) trace (.ret (true, channel'))) :
    channel.sendSequence ≠ 0xffffffffffffffff ∧ payload.length + 24 ≤ 65536 ∧
      channel' = { channel with sendSequence := channel.sendSequence + 1 } ∧
      ∃ (encrypted : Block (payload.length + 16)) (sent : Trace),
        trace = ⟨.gcmEncrypt channel.sendKey.val
            (gcmNonce channel.serverSide channel.sendSequence.toNat)
            (encodeHeader type (payload.length + 24)) payload, some encrypted⟩ :: sent ∧
        written sent =
          encodeFrame ⟨type, sealedPayload channel.sendSequence.toNat encrypted.val⟩ ∧
        received sent = [] ∧ encryptions sent = [] := by
  by_cases hsequence : channel.sendSequence = 0xffffffffffffffff
  · simp [send, hsequence] at run
  by_cases hsize : payload.length + 24 ≤ 65536
  swap
  · have hlong : payload.length + ENCRYPTED_OVERHEAD > MAX_PAYLOAD := lt_of_not_ge hsize
    simp [send, hsequence, hlong] at run
  rw [send_eq hsequence hsize] at run
  obtain ⟨answer, rest, rfl, hrest⟩ := returns_perform_bind_iff.mp run
  cases answer with
  | none => simp at hrest
  | some encrypted =>
      obtain ⟨sent, front, back, rfl, hsend, hback⟩ := returns_bind_iff.mp hrest
      cases sent with
      | false => simp at hback
      | true =>
          obtain ⟨rfl, hresult⟩ := runs_ret_iff.mp hback
          cases hresult
          obtain ⟨-, hwritten, hreceived⟩ := sendFrame_returns hsend
          have htransfers := (hsend.performs (sendFrame_performs _ _ _)).1
          exact ⟨hsequence, hsize, rfl, encrypted, front, by rw [List.append_nil], hwritten,
            hreceived, encryptions_eq_nil htransfers⟩

/-- A send that reports failure leaves the channel as it was. -/
theorem send_returns_false
    (run : Runs (channel.send type payload timeoutMs) trace (.ret (false, channel'))) :
    channel' = channel := by
  unfold send at run
  split at run
  · simp_all
  split at run
  · simp_all
  obtain ⟨answer, rest, rfl, hrest⟩ := returns_perform_bind_iff.mp run
  cases answer with
  | none => simp_all
  | some encrypted =>
      obtain ⟨sent, front, back, rfl, hsend, hback⟩ := returns_bind_iff.mp hrest
      cases sent <;> simp_all

/-- On a frame cut into its fields: compare the sequence number, then decrypt
under the nonce of the other direction. -/
theorem openFrame_sealed (channel : AuthenticatedChannel) (type : UInt8)
    {sequence ciphertext tag : Bytes} (hsequence : sequence.length = 8) (htag : tag.length = 16) :
    channel.openFrame ⟨type, sequence ++ (ciphertext ++ tag)⟩ =
      if beNat sequence ≠ channel.receiveSequence.toNat then .ret (none, channel)
      else (do
        match ← decryptGcm channel.receiveKey
          (gcmNonce (!channel.serverSide) channel.receiveSequence.toNat)
          (encodeHeader type (ciphertext.length + 24)) ciphertext tag with
        | none => .ret (none, channel)
        | some plaintext =>
            .ret (some ⟨type, plaintext⟩,
              { channel with receiveSequence := channel.receiveSequence + 1 })) := by
  have hsize : (sequence ++ (ciphertext ++ tag)).length = ciphertext.length + 24 := by
    simp only [List.length_append, hsequence, htag]
    omega
  have htake : (sequence ++ (ciphertext ++ tag)).take 8 = sequence := by
    rw [← hsequence, List.take_left]
  have hcipher : ((sequence ++ (ciphertext ++ tag)).drop 8).take ciphertext.length = ciphertext := by
    rw [← hsequence, List.drop_left, List.take_left]
  have hdrop : ((sequence ++ (ciphertext ++ tag)).drop (8 + ciphertext.length)).take 16 = tag := by
    rw [← List.drop_drop, ← hsequence, List.drop_left, List.drop_left, ← htag, List.take_length]
  have hfields : ciphertext.length + 24 - 8 - GCM_TAG_SIZE = ciphertext.length := by
    simp only [GCM_TAG_SIZE]
    omega
  unfold openFrame
  simp only [hsize, htake, hsequence, hfields, hcipher, makeHeader_eq]
  rw [if_neg (by simp only [ENCRYPTED_OVERHEAD, GCM_TAG_SIZE]; omega)]
  by_cases hnumber : beNat sequence = channel.receiveSequence.toNat
  · have hreceived : receivedSequence sequence = channel.receiveSequence := by
      apply UInt64.toNat_inj.mp
      rw [receivedSequence_eq hsequence.le, hnumber]
    have hnonce : makeGcmNonce (if channel.serverSide then CLIENT_NONCE_PREFIX
        else SERVER_NONCE_PREFIX) sequence =
        gcmNonce (!channel.serverSide) channel.receiveSequence.toNat := by
      rw [← hnumber, gcmNonce, ← hsequence, beBytes_beNat]
      cases channel.serverSide <;> rfl
    rw [if_neg (not_not.mpr hreceived), if_neg (not_not.mpr hnumber), hnonce]
    simp only [GCM_TAG_SIZE, hdrop]
  · have hreceived : receivedSequence sequence ≠ channel.receiveSequence := by
      intro h
      apply hnumber
      rw [← h, receivedSequence_eq hsequence.le]
    rw [if_pos hreceived, if_pos hnumber]

/-- A frame that the channel accepts is the decryption, under the next nonce
and with its own header as associated data, of the frame that was read. A call
that accepts nothing leaves the channel as it was. -/
theorem openFrame_returns {wire : Frame} {result : Option Frame}
    (run : Runs (channel.openFrame wire) trace (.ret (result, channel'))) :
    match result with
    | none => channel' = channel
    | some frame =>
        channel' = { channel with receiveSequence := channel.receiveSequence + 1 } ∧
        ∃ ciphertext tag : Bytes, tag.length = 16 ∧
          wire = ⟨frame.type, sealedPayload channel.receiveSequence.toNat (ciphertext ++ tag)⟩ ∧
          trace = [⟨.gcmDecrypt channel.receiveKey.val
            (gcmNonce (!channel.serverSide) channel.receiveSequence.toNat)
            (encodeHeader frame.type (ciphertext.length + 24)) ciphertext tag,
            some frame.payload⟩] := by
  by_cases hsize : wire.payload.length < ENCRYPTED_OVERHEAD
  · unfold openFrame at run
    rw [if_pos hsize] at run
    obtain ⟨rfl, hresult⟩ := runs_ret_iff.mp run
    cases hresult
    rfl
  obtain ⟨sequence, ciphertext, tag, hsequence, htag, hpayload⟩ :=
    exists_sealed_fields wire.payload
      (by simpa [ENCRYPTED_OVERHEAD, GCM_TAG_SIZE] using hsize)
  obtain ⟨wireType, wirePayload⟩ := wire
  obtain rfl : wirePayload = _ := hpayload
  rw [openFrame_sealed channel wireType hsequence htag] at run
  split at run
  · obtain ⟨rfl, hresult⟩ := runs_ret_iff.mp run
    cases hresult
    rfl
  next hnumber =>
  rw [not_not] at hnumber
  obtain ⟨answer, rest, rfl, hrest⟩ := returns_perform_bind_iff.mp run
  cases answer with
  | none =>
      obtain ⟨rfl, hresult⟩ := runs_ret_iff.mp hrest
      cases hresult
      rfl
  | some plaintext =>
      obtain ⟨rfl, hresult⟩ := runs_ret_iff.mp hrest
      cases hresult
      refine ⟨rfl, ciphertext, tag, htag, ?_, rfl⟩
      rw [sealedPayload, ← hnumber, ← hsequence, beBytes_beNat]

theorem receive_returns {result : Option Frame}
    (run : Runs (channel.receive timeoutMs) trace (.ret (result, channel'))) :
    match result with
    | none => channel' = channel
    | some frame =>
        channel.receiveSequence ≠ 0xffffffffffffffff ∧
        channel' = { channel with receiveSequence := channel.receiveSequence + 1 } ∧
        ∃ (ciphertext tag : Bytes) (arrival : Trace), tag.length = 16 ∧
          received arrival = encodeFrame
            ⟨frame.type, sealedPayload channel.receiveSequence.toNat (ciphertext ++ tag)⟩ ∧
          written arrival = [] ∧
          trace = arrival ++ [⟨.gcmDecrypt channel.receiveKey.val
            (gcmNonce (!channel.serverSide) channel.receiveSequence.toNat)
            (encodeHeader frame.type (ciphertext.length + 24)) ciphertext tag,
            some frame.payload⟩] := by
  unfold receive at run
  split at run
  · obtain ⟨rfl, hresult⟩ := runs_ret_iff.mp run
    cases hresult
    rfl
  next hnumber =>
  obtain ⟨answer, arrival, rest, rfl, harrival, hrest⟩ := returns_bind_iff.mp run
  cases answer with
  | none =>
      obtain ⟨rfl, hresult⟩ := runs_ret_iff.mp hrest
      cases hresult
      rfl
  | some wire =>
      have hopen := openFrame_returns hrest
      cases result with
      | none => exact hopen
      | some frame =>
          obtain ⟨hchannel, ciphertext, tag, htag, rfl, rfl⟩ := hopen
          obtain ⟨-, hreceived, hwritten⟩ := receiveFrame_returns harrival
          exact ⟨hnumber, hchannel, ciphertext, tag, arrival, htag, hreceived, hwritten, rfl⟩

theorem ofSessionKey_returns {sessionKey : Block 32} {serverSide : Bool}
    (run : Runs (ofSessionKey sessionKey serverSide) trace (.ret channel)) :
    channel.serverSide = serverSide ∧ channel.sendSequence = 0 ∧ channel.receiveSequence = 0 := by
  obtain ⟨sendKey, _, rest, rfl, _, hrest⟩ := returns_bind_iff.mp run
  cases sendKey with
  | none => simp at hrest
  | some sendKey =>
      obtain ⟨receiveKey, _, rest, rfl, _, hrest⟩ := returns_bind_iff.mp hrest
      cases receiveKey with
      | none => simp at hrest
      | some receiveKey =>
          obtain ⟨-, hchannel⟩ := runs_ret_iff.mp hrest
          cases hchannel
          exact ⟨rfl, rfl, rfl⟩

end Runs

end AuthenticatedChannel

end OpenCam.Linux
