import OpenCam.Android.Handshake
import OpenCam.Control.Agreement
import OpenCam.Interaction.Processes
import OpenCam.Linux.Controller

/-!
A phone and a controller that both follow the protocol, on a socket that loses nothing and
where no deadline passes. The bytes between them are two queues. However their steps
interleave, the handshake ends with one session key on both sides.
-/

namespace OpenCam.Control

open Octets Interaction Crypto

section Surroundings

/-- What a peer meets beside its socket: the nonce that it draws, a clock that stands, and the
device that the controller finds. -/
structure Surroundings where
  nonce : Block 32
  clock : Time
  device : Bytes

/-- Libraries that compute the standard functions, and a socket whose reads wait until all
their bytes are there. -/
def peerAnswer (primitives : Primitives) (surroundings : Surroundings) : Answer Op Op.Res UInt8
  | .randBytes, unread => some (some surroundings.nonce, unread, [])
  | .secureRandom, unread => some (surroundings.nonce, unread, [])
  | .findOpenCamDevice, unread => some (surroundings.device, unread, [])
  | .waitForRtsp _, unread => some (true, unread, [])
  | op, unread =>
      (standardAnswer primitives surroundings.clock op ⟨unread, []⟩).map
        fun (res, wire) => (res, wire.incoming, wire.outgoing)

variable {primitives : Primitives} {surroundings : Surroundings}

theorem peerAnswer_monotone : (peerAnswer primitives surroundings).Monotone := by
  intro op unread res rest sent h more
  cases op with
  | readAll size timeoutMs deadline =>
      by_cases hsize : size ≤ unread.length
      · have hmore : size ≤ (unread ++ more).length := by
          rw [List.length_append]
          omega
        simp only [peerAnswer, standardAnswer, dif_pos hsize, Option.map_some,
          Option.some.injEq, Prod.mk.injEq] at h
        simp only [peerAnswer, standardAnswer, dif_pos hmore, Option.map_some,
          List.take_append_of_le_length hsize, List.drop_append_of_le_length hsize]
        obtain ⟨rfl, rfl, rfl⟩ := h
        rfl
      · simp only [peerAnswer, standardAnswer, dif_neg hsize, Option.map_none, reduceCtorEq] at h
  | _ =>
      simp only [peerAnswer, standardAnswer, Option.map_some, Option.map_none, Option.some.injEq,
        Prod.mk.injEq, reduceCtorEq] at h ⊢
      try exact ⟨h.1, by rw [← h.2.1], h.2.2⟩

/-- An answer on a wire is the answer between the queues. -/
theorem standardAnswer_queued (op : Op) (wire : Wire) (res : op.Res) (after : Wire)
    (h : standardAnswer primitives surroundings.clock op wire = some (res, after)) :
    (peerAnswer primitives surroundings).queued op (wire.incoming, wire.outgoing) =
      some (res, (after.incoming, after.outgoing)) := by
  cases op with
  | readAll size timeoutMs deadline =>
      by_cases hsize : size ≤ wire.incoming.length
      · simp only [standardAnswer, dif_pos hsize, Option.some.injEq, Prod.mk.injEq] at h
        obtain ⟨rfl, rfl⟩ := h
        simp [Answer.queued, peerAnswer, standardAnswer, hsize]
      · simp only [standardAnswer, dif_neg hsize, reduceCtorEq] at h
  | _ =>
      simp only [standardAnswer, Option.some.injEq, Prod.mk.injEq, reduceCtorEq] at h
      try
        obtain ⟨rfl, rfl⟩ := h
        simp [Answer.queued, peerAnswer, standardAnswer]

variable {program : Program α} {value : α} {incoming outgoing incoming' outgoing' : Bytes}

theorem randBytes_queued : (peerAnswer primitives surroundings).queued .randBytes
    (incoming, outgoing) = some (some surroundings.nonce, (incoming, outgoing)) := by
  simp [Answer.queued, peerAnswer]

theorem secureRandom_queued : (peerAnswer primitives surroundings).queued .secureRandom
    (incoming, outgoing) = some (surroundings.nonce, (incoming, outgoing)) := by
  simp [Answer.queued, peerAnswer]

theorem constantTimeEqual_queued (bytes : Bytes) : (peerAnswer primitives surroundings).queued
    (.constantTimeEqual bytes bytes) (incoming, outgoing) =
      some (⟨true, by simp⟩, (incoming, outgoing)) := by
  simp [Answer.queued, peerAnswer, standardAnswer]

theorem now_queued : (peerAnswer primitives surroundings).queued .now
    (incoming, outgoing) = some (surroundings.clock, (incoming, outgoing)) := by
  simp [Answer.queued, peerAnswer, standardAnswer]

/-- What a program evaluates to on a wire, it evaluates to between the queues. -/
theorem evaluates_between
    (h : program.Evaluates (standardAnswer primitives surroundings.clock) ⟨incoming, outgoing⟩
      value ⟨incoming', outgoing'⟩) :
    program.Evaluates (peerAnswer primitives surroundings).queued (incoming, outgoing) value
      (incoming', outgoing') :=
  h.simulate (fun wire : Wire => (wire.incoming, wire.outgoing)) standardAnswer_queued

end Surroundings

section Frames

variable {primitives : Primitives} {clock : Time}

theorem linux_sendFrame_standard {frame : Frame} (hsize : frame.payload.length ≤ 65536)
    (timeoutMs : Int) (wire : Wire) :
    (Linux.sendFrame frame.type frame.payload timeoutMs).Evaluates
      (standardAnswer primitives clock) wire true
      { wire with outgoing := wire.outgoing ++ encodeFrame frame } := by
  obtain ⟨deadline, hdeadline⟩ := linux_deadline_evaluates primitives clock timeoutMs wire
  rw [encodeFrame, ← List.append_assoc]
  refine Linux.sendFrame_evaluates hsize hdeadline
    (standard_takes primitives clock timeoutMs deadline wire (encodeHeader frame.type _))
    (fun h => ?_) (fun _ => standard_takes primitives clock _ _ _ _)
  rw [h, List.append_nil]

theorem linux_receiveFrame_standard {frame : Frame} (hsize : frame.payload.length ≤ 65536)
    (timeoutMs : Int) (rest outgoing : Bytes) :
    (Linux.receiveFrame timeoutMs).Evaluates (standardAnswer primitives clock)
      ⟨encodeFrame frame ++ rest, outgoing⟩ (some frame) ⟨rest, outgoing⟩ := by
  obtain ⟨deadline, hdeadline⟩ := linux_deadline_evaluates primitives clock timeoutMs
    ⟨encodeFrame frame ++ rest, outgoing⟩
  refine Linux.receiveFrame_evaluates hsize hdeadline ?_ (fun h => ?_)
    (fun _ => standard_delivers _ _ _ _ _ _ _)
  · rw [encodeFrame, List.append_assoc]
    exact standard_delivers _ _ _ _ _ _ _
  · rw [h, List.nil_append]

theorem android_writeFrame_standard {frame : Frame} (hsize : frame.payload.length ≤ 65536)
    (wire : Wire) :
    (Android.writeFrame frame.type.toNat frame.payload).Evaluates
      (standardAnswer primitives clock) wire ()
      { wire with outgoing := wire.outgoing ++ encodeFrame frame } := by
  rw [encodeFrame, ← List.append_assoc]
  have hwrite := Android.writeFrame_evaluates hsize
    (standard_takes primitives clock (-1) Android.LONG_MAX_VALUE wire
      (encodeHeader (Android.toByte frame.type.toNat) _))
    (standard_takes primitives clock _ _ _ _)
  rwa [Android.toByte_natCast] at hwrite

theorem android_readFrame_standard {frame : Frame} (hsize : frame.payload.length ≤ 65536)
    (timeoutMs : Int) (rest outgoing : Bytes) :
    (Android.readFrame timeoutMs).Evaluates (standardAnswer primitives clock)
      ⟨encodeFrame frame ++ rest, outgoing⟩ ⟨frame.type.toNat, frame.payload⟩
      ⟨rest, outgoing⟩ := by
  obtain ⟨deadline, hdeadline⟩ := android_deadline_evaluates primitives clock timeoutMs
    ⟨encodeFrame frame ++ rest, outgoing⟩
  refine Android.readFrame_evaluates hsize hdeadline ?_ (fun h => ?_)
    (fun _ => standard_delivers _ _ _ _ _ _ _)
  · rw [encodeFrame, List.append_assoc]
    exact standard_delivers _ _ _ _ _ _ _
  · rw [h, List.nil_append]

end Frames

section Segments

/-- `handleClient` up to its first frame. -/
def openHandshake : Program (Option (Block 32)) := do
  match ← Linux.randomSecret with
  | none => .ret none
  | some serverNonce =>
      match ← Linux.sendFrame Linux.SERVER_HELLO serverNonce.val Linux.HANDSHAKE_TIMEOUT_MS with
      | false => .ret none
      | true => .ret (some serverNonce)

/-- From the client's proof to the decision about it. -/
def awaitProof (secret serverNonce : Block 32) : Program (Option (Block 32 × Block 32)) := do
  match ← Linux.receiveFrame Linux.HANDSHAKE_TIMEOUT_MS with
  | none => .ret none
  | some authFrame =>
      if authFrame.type ≠ Linux.CLIENT_AUTH then .ret none
      else if h : authFrame.payload.length = 64 then do
        let clientNonce := Linux.firstNonce authFrame.payload h
        match ← Linux.makeProof secret Linux.CLIENT_PROOF_DOMAIN serverNonce clientNonce with
        | none => .ret none
        | some expectedClientProof =>
            match ← Linux.constantTimeEqual expectedClientProof.val
              (authFrame.payload.drop Linux.NONCE_SIZE) with
            | false => .ret none
            | true => .ret (some (serverNonce, clientNonce))
      else .ret none

/-- The rest of the handshake, from the client's proof on. -/
def closeHandshake (secret : Block 32) (pairingExpires : Time) :
    Option (Block 32) → Program (Option Linux.Handshake)
  | none => .ret none
  | some serverNonce => do
      match ← awaitProof secret serverNonce with
      | none => .ret none
      | some (serverNonce, clientNonce) => do
          let now ← ask .now
          if now ≥ pairingExpires then .ret none
          else Linux.proveServer secret serverNonce clientNonce

theorem authenticateClient_eq (secret : Block 32) (pairingExpires : Time) :
    Linux.authenticateClient secret pairingExpires =
      openHandshake >>= closeHandshake secret pairingExpires := by
  unfold Linux.authenticateClient Linux.verifyClient openHandshake
  rw [Prog.bind_assoc, Prog.bind_assoc]
  congr 1
  funext drawn
  cases drawn with
  | none => rfl
  | some serverNonce =>
      dsimp only
      rw [Prog.bind_assoc, Prog.bind_assoc]
      congr 1
      funext sent
      cases sent <;> rfl

/-- `authenticate` up to its proof. -/
def greet (token : Bytes) : Program (Bytes × Block 32) := do
  Android.require (token.length = Android.KEY_SIZE) "Invalid pairing token"
  let serverNonce ← Android.receiveHello
  let clientNonce ← Android.proveClient token serverNonce
  .ret (serverNonce, clientNonce)

/-- From the controller's proof to the channel. -/
def confirm (token : Bytes) (nonces : Bytes × Block 32) :
    Program (Android.Handshake × Android.AuthenticatedChannel) := do
  let agreed ← Android.verifyServer token nonces.1 nonces.2
  let channel ← Android.AuthenticatedChannel.ofSessionKey agreed.sessionKey false
  .ret (agreed, channel)

theorem authenticateAgreeing_eq (token : Bytes) :
    Android.authenticateAgreeing token = greet token >>= confirm token := by
  unfold Android.authenticateAgreeing Android.agree greet
  simp only [Prog.bind_assoc]
  rfl

end Segments

section Handshake

variable (primitives : Primitives) (secret serverNonce clientNonce : Block 32)

/-- The proof of one side. -/
def proofOf (domain : Bytes) : Block 32 :=
  primitives.hmac secret.val (domain ++ serverNonce.val ++ clientNonce.val)

/-- The session key under one secret and two nonces. -/
def sessionKeyOf : Block 32 :=
  hkdfKey primitives.hmac
    (hkdfExtract primitives.hmac (serverNonce.val ++ clientNonce.val) secret.val).val sessionInfo

def helloFrame : Frame := ⟨Linux.SERVER_HELLO, serverNonce.val⟩

def clientAuthFrame : Frame where
  type := Linux.CLIENT_AUTH
  payload := clientNonce.val ++
    (proofOf primitives secret serverNonce clientNonce Linux.CLIENT_PROOF_DOMAIN).val

def serverAuthFrame : Frame where
  type := Linux.SERVER_AUTH
  payload := (proofOf primitives secret serverNonce clientNonce Linux.SERVER_PROOF_DOMAIN).val

variable {primitives secret serverNonce clientNonce} {surroundings : Surroundings}
  {rest outgoing : Bytes}

theorem openHandshake_evaluates :
    openHandshake.Evaluates (peerAnswer primitives surroundings).queued (rest, outgoing)
      (some surroundings.nonce) (rest, outgoing ++ encodeFrame (helloFrame surroundings.nonce)) := by
  have hsize : (helloFrame surroundings.nonce).payload.length ≤ 65536 := by
    rw [helloFrame, surroundings.nonce.property]
    decide
  exact Prog.evaluates_perform_bind randBytes_queued
    ((evaluates_between (linux_sendFrame_standard hsize _ ⟨rest, outgoing⟩)).bind
      (Prog.evaluates_ret _ _))

theorem clientAuthFrame_length :
    (clientAuthFrame primitives secret serverNonce clientNonce).payload.length = 64 := by
  rw [clientAuthFrame, List.length_append, clientNonce.property,
    (proofOf primitives secret serverNonce clientNonce _).property]

theorem android_proof_evaluates (domain : Bytes) :
    (Android.proof secret.val domain serverNonce.val clientNonce.val).Evaluates
      (peerAnswer primitives surroundings).queued (rest, outgoing)
      (proofOf primitives secret serverNonce clientNonce domain).val (rest, outgoing) :=
  evaluates_between (mac_evaluates primitives surroundings.clock _ _ ⟨rest, outgoing⟩)

theorem linux_proof_evaluates (domain : Bytes) :
    (Linux.makeProof secret domain serverNonce clientNonce).Evaluates
      (peerAnswer primitives surroundings).queued (rest, outgoing)
      (some (proofOf primitives secret serverNonce clientNonce domain)) (rest, outgoing) := by
  have hproof : (Linux.makeProof secret domain serverNonce clientNonce).Evaluates
      (standardAnswer primitives surroundings.clock) ⟨rest, outgoing⟩
      (some (proofOf primitives secret serverNonce clientNonce domain)) ⟨rest, outgoing⟩ :=
    Prog.evaluates_perform rfl
  exact evaluates_between hproof

theorem receiveHello_evaluates :
    Android.receiveHello.Evaluates (peerAnswer primitives surroundings).queued
      (encodeFrame (helloFrame serverNonce) ++ rest, outgoing) serverNonce.val
      (rest, outgoing) := by
  have hsize : (helloFrame serverNonce).payload.length = 32 := serverNonce.property
  have htype : ((helloFrame serverNonce).type.toNat : Int) = Android.TYPE_SERVER_HELLO := rfl
  refine (evaluates_between (android_readFrame_standard (hsize.trans_le (by decide)) 5000 rest
    outgoing)).bind ?_
  dsimp only
  rw [if_neg (not_or.mpr ⟨not_not.mpr htype, not_not.mpr hsize⟩)]
  exact Prog.evaluates_ret _ _

theorem proveClient_evaluates :
    (Android.proveClient secret.val serverNonce.val).Evaluates
      (peerAnswer primitives surroundings).queued (rest, outgoing) surroundings.nonce
      (rest, outgoing ++
        encodeFrame (clientAuthFrame primitives secret serverNonce surroundings.nonce)) := by
  refine Prog.evaluates_perform_bind secureRandom_queued
    ((android_proof_evaluates Android.CLIENT_PROOF_DOMAIN).bind ?_)
  exact (evaluates_between (android_writeFrame_standard
    (clientAuthFrame_length.trans_le (by decide)) ⟨rest, outgoing⟩)).bind
      (Prog.evaluates_ret _ _)

theorem greet_evaluates :
    (greet secret.val).Evaluates (peerAnswer primitives surroundings).queued
      (encodeFrame (helloFrame serverNonce) ++ rest, outgoing)
      (serverNonce.val, surroundings.nonce)
      (rest, outgoing ++
        encodeFrame (clientAuthFrame primitives secret serverNonce surroundings.nonce)) :=
  (Android.require_evaluates (decide_eq_true secret.property) _).bind
    (receiveHello_evaluates.bind (proveClient_evaluates.bind (Prog.evaluates_ret _ _)))

theorem awaitProof_evaluates :
    (awaitProof secret serverNonce).Evaluates (peerAnswer primitives surroundings).queued
      (encodeFrame (clientAuthFrame primitives secret serverNonce clientNonce) ++ rest, outgoing)
      (some (serverNonce, clientNonce)) (rest, outgoing) := by
  have hlength := @clientAuthFrame_length primitives secret serverNonce clientNonce
  have hnonce : Linux.firstNonce _ hlength = clientNonce :=
    Subtype.ext (List.take_left' clientNonce.property)
  have hproof : (clientAuthFrame primitives secret serverNonce clientNonce).payload.drop
      Linux.NONCE_SIZE =
      (proofOf primitives secret serverNonce clientNonce Linux.CLIENT_PROOF_DOMAIN).val :=
    List.drop_left' clientNonce.property
  refine (evaluates_between (linux_receiveFrame_standard (hlength.trans_le (by decide)) _ rest
    outgoing)).bind ?_
  have htype : (clientAuthFrame primitives secret serverNonce clientNonce).type =
    Linux.CLIENT_AUTH := rfl
  dsimp only
  rw [if_neg (not_not.mpr htype), dif_pos hlength, hnonce, hproof]
  refine (linux_proof_evaluates Linux.CLIENT_PROOF_DOMAIN).bind ?_
  exact Prog.evaluates_perform_bind (constantTimeEqual_queued _) (Prog.evaluates_ret _ _)

theorem linux_sessionKey_evaluates :
    (Linux.deriveSessionKey secret serverNonce clientNonce).Evaluates
      (peerAnswer primitives surroundings).queued (rest, outgoing)
      (some (sessionKeyOf primitives secret serverNonce clientNonce)) (rest, outgoing) := by
  have hkey : (Linux.deriveSessionKey secret serverNonce clientNonce).Evaluates
      (standardAnswer primitives surroundings.clock) ⟨rest, outgoing⟩
      (some (sessionKeyOf primitives secret serverNonce clientNonce)) ⟨rest, outgoing⟩ :=
    Prog.evaluates_perform rfl
  exact evaluates_between hkey

theorem android_sessionKey_evaluates :
    (Android.deriveSessionKey secret.val serverNonce.val clientNonce.val).Evaluates
      (peerAnswer primitives surroundings).queued (rest, outgoing)
      (sessionKeyOf primitives secret serverNonce clientNonce).val (rest, outgoing) := by
  obtain ⟨value, hvalue⟩ : BothCompute primitives surroundings.clock _ _ :=
    sessionKey_agrees secret serverNonce clientNonce
  obtain ⟨hlinux, handroid⟩ := hvalue ⟨rest, outgoing⟩
  obtain ⟨hsame, -⟩ := (evaluates_between hlinux).unique linux_sessionKey_evaluates
  rw [← Option.some.inj hsame]
  exact evaluates_between handroid

theorem proveServer_evaluates :
    (Linux.proveServer secret serverNonce clientNonce).Evaluates
      (peerAnswer primitives surroundings).queued (rest, outgoing)
      (some ⟨serverNonce, clientNonce, sessionKeyOf primitives secret serverNonce clientNonce⟩)
      (rest, outgoing ++
        encodeFrame (serverAuthFrame primitives secret serverNonce clientNonce)) := by
  have hlength : (serverAuthFrame primitives secret serverNonce clientNonce).payload.length = 32 :=
    (proofOf primitives secret serverNonce clientNonce _).property
  refine (linux_proof_evaluates Linux.SERVER_PROOF_DOMAIN).bind ?_
  refine linux_sessionKey_evaluates.bind ?_
  exact (evaluates_between (linux_sendFrame_standard (hlength.trans_le (by decide)) _
    ⟨rest, outgoing⟩)).bind (Prog.evaluates_ret _ _)

theorem closeHandshake_evaluates {pairingExpires : Time}
    (hclock : surroundings.clock < pairingExpires) :
    (closeHandshake secret pairingExpires (some serverNonce)).Evaluates
      (peerAnswer primitives surroundings).queued
      (encodeFrame (clientAuthFrame primitives secret serverNonce clientNonce) ++ rest, outgoing)
      (some ⟨serverNonce, clientNonce, sessionKeyOf primitives secret serverNonce clientNonce⟩)
      (rest, outgoing ++
        encodeFrame (serverAuthFrame primitives secret serverNonce clientNonce)) := by
  refine awaitProof_evaluates.bind (Prog.evaluates_perform_bind now_queued ?_)
  rw [if_neg (not_le.mpr hclock)]
  exact proveServer_evaluates

theorem verifyServer_evaluates :
    (Android.verifyServer secret.val serverNonce.val clientNonce).Evaluates
      (peerAnswer primitives surroundings).queued
      (encodeFrame (serverAuthFrame primitives secret serverNonce clientNonce) ++ rest, outgoing)
      ⟨serverNonce.val, clientNonce,
        (sessionKeyOf primitives secret serverNonce clientNonce).val⟩ (rest, outgoing) := by
  have hlength : (serverAuthFrame primitives secret serverNonce clientNonce).payload.length = 32 :=
    (proofOf primitives secret serverNonce clientNonce _).property
  have htype : ((serverAuthFrame primitives secret serverNonce clientNonce).type.toNat : Int) =
    Android.TYPE_SERVER_AUTH := rfl
  refine (evaluates_between (android_readFrame_standard (hlength.trans_le (by decide)) 5000 rest
    outgoing)).bind ?_
  dsimp only
  rw [if_neg (not_or.mpr ⟨not_not.mpr htype, not_not.mpr hlength⟩)]
  refine (android_proof_evaluates Android.SERVER_PROOF_DOMAIN).bind ?_
  refine Prog.evaluates_perform_bind (constantTimeEqual_queued _) ?_
  exact android_sessionKey_evaluates.bind (Prog.evaluates_ret _ _)

theorem confirm_evaluates :
    (confirm secret.val (serverNonce.val, clientNonce)).Evaluates
      (peerAnswer primitives surroundings).queued
      (encodeFrame (serverAuthFrame primitives secret serverNonce clientNonce) ++ rest, outgoing)
      (⟨serverNonce.val, clientNonce,
          (sessionKeyOf primitives secret serverNonce clientNonce).val⟩,
        androidChannel primitives (sessionKeyOf primitives secret serverNonce clientNonce) false
          0 0)
      (rest, outgoing) :=
  verifyServer_evaluates.bind
    ((evaluates_between (android_ofSessionKey_evaluates _ _ ⟨rest, outgoing⟩)).bind
      (Prog.evaluates_ret _ _))

end Handshake

section Interleaving

/-- The controller is the side `true`. -/
@[reducible] def HandshakeResult : Bool → Type
  | true => Option Linux.Handshake
  | false => Android.Handshake × Android.AuthenticatedChannel

/-- The two programs between two queues. -/
abbrev HandshakeState : Type :=
  Processes (fun _ : Bool => Op) (fun _ => Op.Res) HandshakeResult UInt8

variable (primitives : Primitives) (secret : Block 32) (server client : Surroundings)

def peerAnswers (side : Bool) : Answer Op Op.Res UInt8 :=
  peerAnswer primitives (if side then server else client)

/-- Every byte that one side sends joins the queue of the other. -/
def HandshakeStep : HandshakeState → HandshakeState → Prop :=
  ProcessStep (peerAnswers primitives server client) not

def handshakePrograms (pairingExpires : Time) : (side : Bool) → Program (HandshakeResult side)
  | true => Linux.authenticateClient secret pairingExpires
  | false => Android.authenticateAgreeing secret.val

/-- Nothing has been sent yet. -/
def handshakeStart (pairingExpires : Time) : HandshakeState where
  remaining := handshakePrograms secret pairingExpires
  unread _ := []

/-- What the two sides return. -/
def handshakeResults : (side : Bool) → HandshakeResult side
  | true => some ⟨server.nonce, client.nonce,
      sessionKeyOf primitives secret server.nonce client.nonce⟩
  | false => (⟨server.nonce.val, client.nonce,
        (sessionKeyOf primitives secret server.nonce client.nonce).val⟩,
      androidChannel primitives (sessionKeyOf primitives secret server.nonce client.nonce) false
        0 0)

/-- Both sides have returned, and nothing is left unread. -/
def handshakeEnd : HandshakeState where
  remaining side := .ret (handshakeResults primitives secret server client side)
  unread _ := []

variable {primitives secret server client} {pairingExpires : Time}

theorem HandshakeStep.leads (side : Bool) {state : HandshakeState} {β : Type} {part : Program β}
    {value : β} {unread rest sent : Bytes} {next : β → Program (HandshakeResult side)}
    (h : part.Evaluates (peerAnswers primitives server client side).queued (unread, []) value
      (rest, sent))
    (hremaining : state.remaining side = part >>= next) (hunread : state.unread side = unread) :
    Relation.ReflTransGen (HandshakeStep primitives server client) state
      (state.move not side (next value) rest sent) := by
  refine @Prog.Evaluates.leads _ _ _ _ _ _ (peerAnswers primitives server client) not state side
    β part value unread rest sent h ?_ next hremaining hunread
  cases side <;> decide

/-- The order in which every step waits for the frame before it. -/
theorem handshake_completes (hclock : server.clock < pairingExpires) :
    Relation.ReflTransGen (HandshakeStep primitives server client)
      (handshakeStart secret pairingExpires) (handshakeEnd primitives secret server client) := by
  have hhello : Relation.ReflTransGen (HandshakeStep primitives server client)
      (handshakeStart secret pairingExpires) _ :=
    HandshakeStep.leads true openHandshake_evaluates (authenticateClient_eq secret pairingExpires)
      rfl
  have hproof := hhello.trans (HandshakeStep.leads false greet_evaluates
    (authenticateAgreeing_eq secret.val) (List.append_nil _).symm)
  have hserver := hproof.trans (HandshakeStep.leads true (closeHandshake_evaluates hclock)
    (Prog.bind_ret _).symm (List.append_nil _).symm)
  obtain ⟨last, hlast, hclient⟩ : ∃ last, last = handshakeEnd primitives secret server client ∧
      Relation.ReflTransGen (HandshakeStep primitives server client)
        (handshakeStart secret pairingExpires) last := by
    refine ⟨_, ?_, hserver.trans (HandshakeStep.leads false confirm_evaluates
      (Prog.bind_ret _).symm (List.append_nil _).symm)⟩
    refine Processes.ext (funext fun side => ?_) (funext fun side => ?_) <;> cases side <;> rfl
  exact hlast ▸ hclient

/-- The handshake between two peers that follow the protocol. -/
theorem handshake_inevitable (hclock : server.clock < pairingExpires) :
    Inevitable (HandshakeStep primitives server client) (handshakeStart secret pairingExpires)
      (handshakeEnd primitives secret server client) := by
  have hroute : Function.Injective not := Bool.injective_iff.mpr (by decide)
  have hfinal : Final (HandshakeStep primitives server client)
      (handshakeEnd primitives secret server client) :=
    processStep_final fun side op next h => by cases h
  exact (processStep_diamond (fun side => peerAnswer_monotone) hroute).inevitable hfinal
    (handshake_completes hclock)

/-- A pairing code that expires later than the handshake runs. -/
theorem handshake_inevitable_sample :
    Inevitable
      (HandshakeStep samplePrimitives ⟨sampleServerNonce, 0, []⟩ ⟨sampleClientNonce, 7, []⟩)
      (handshakeStart sampleSecret 1)
      (handshakeEnd samplePrimitives sampleSecret ⟨sampleServerNonce, 0, []⟩
        ⟨sampleClientNonce, 7, []⟩) :=
  handshake_inevitable (by decide)

end Interleaving

end OpenCam.Control
