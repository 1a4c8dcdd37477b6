import OpenCam.Linux.ControlProtocol
import OpenCam.Android.ControlProtocol

/-!
The two implementations are one protocol. Both run against the same
surroundings, where every library computes the standard functions and the
socket carries whole transfers, and there they compute the same values and
write the same bytes.
-/

namespace OpenCam.Control

open Octets Interaction Crypto

/-- What has arrived on a socket and is still unread, and what has been written. -/
structure Wire where
  incoming : Bytes
  outgoing : Bytes

/-- Libraries that compute the standard functions, and a socket that blocks
until a transfer is complete. -/
def standardAnswer (primitives : Primitives) (clock : Time) :
    (op : Op) → Wire → Option (op.Res × Wire)
  | .now, wire => some (clock, wire)
  | .hmac key data, wire => some (some (primitives.hmac key data), wire)
  | .hkdfExpand prk info, wire => some (some (hkdfKey primitives.hmac prk info), wire)
  | .hkdfExtractAndExpand salt key info, wire =>
      some (some (hkdfKey primitives.hmac (hkdfExtract primitives.hmac salt key).val info), wire)
  | .gcmEncrypt key nonce aad plaintext, wire =>
      some (some (primitives.encrypt key nonce aad plaintext), wire)
  | .gcmDecrypt key nonce aad ciphertext tag, wire =>
      some (primitives.decrypt key nonce aad ciphertext tag, wire)
  | .constantTimeEqual left right, wire =>
      some (⟨decide (left = right), decide_eq_true_iff⟩, wire)
  | .writeAll bytes _ _, wire => some (true, { wire with outgoing := wire.outgoing ++ bytes })
  | .readAll size _ _, wire =>
      if h : size ≤ wire.incoming.length then
        some (some ⟨wire.incoming.take size, List.length_take_of_le h⟩,
          { wire with incoming := wire.incoming.drop size })
      else none
  | _, _ => none

section Surroundings

variable (primitives : Primitives) (clock : Time)

theorem standard_takes (timeoutMs : Int) (deadline : Time) (wire : Wire) (bytes : Bytes) :
    Takes (standardAnswer primitives clock) timeoutMs deadline wire bytes
      { wire with outgoing := wire.outgoing ++ bytes } := rfl

theorem standard_delivers (timeoutMs : Int) (deadline : Time) (bytes rest outgoing : Bytes) :
    Delivers (standardAnswer primitives clock) timeoutMs deadline ⟨bytes ++ rest, outgoing⟩ bytes
      ⟨rest, outgoing⟩ := by
  rintro size rfl
  rw [standardAnswer, dif_pos (by simp)]
  simp

theorem mac_evaluates (key data : Bytes) (wire : Wire) :
    (Android.mac key data).Evaluates (standardAnswer primitives clock) wire
      (primitives.hmac key data).val wire :=
  Prog.evaluates_perform_bind rfl (Prog.evaluates_ret _ wire)

theorem linux_deadline_evaluates (timeoutMs : Int) (wire : Wire) :
    ∃ deadline, (Linux.deadlineFor timeoutMs).Evaluates (standardAnswer primitives clock) wire
      deadline wire := by
  unfold Linux.deadlineFor
  split
  · exact ⟨_, Prog.evaluates_ret _ wire⟩
  · exact ⟨_, Prog.evaluates_perform_bind rfl (Prog.evaluates_ret _ wire)⟩

theorem android_deadline_evaluates (timeoutMs : Int) (wire : Wire) :
    ∃ deadline, (Android.readDeadline timeoutMs).Evaluates (standardAnswer primitives clock) wire
      deadline wire := by
  unfold Android.readDeadline
  split
  · exact ⟨_, Prog.evaluates_ret _ wire⟩
  · exact ⟨_, Prog.evaluates_perform_bind rfl (Prog.evaluates_ret _ wire)⟩

end Surroundings

section KeySchedule

variable {primitives : Primitives} {clock : Time}

/-- The block that one pass of the loop copies extends the output. -/
theorem hkdfStream_take_succ (hmac : Bytes → Bytes → Block 32) (prk info : Bytes)
    {index outputLength : Nat} (hmore : 32 * index < outputLength) :
    (hkdfStream hmac prk info index).take outputLength ++
        (hkdfBlock hmac prk info (index + 1)).take
          (min (hkdfBlock hmac prk info (index + 1)).length
            (outputLength - ((hkdfStream hmac prk info index).take outputLength).length)) =
      (hkdfStream hmac prk info (index + 1)).take outputLength := by
  have hoffset : ((hkdfStream hmac prk info index).take outputLength).length = 32 * index := by
    rw [List.length_take, hkdfStream_length]
    omega
  rw [hoffset, hkdfStream, List.take_append, hkdfStream_length, List.append_cancel_left_eq,
    List.take_eq_take_iff]
  omega

/-- By induction on the passes. The invariant is that `output` is what the HKDF
stream up to the last block has of the output. -/
theorem hkdfExpandLoop_evaluates (prk info : Bytes) (outputLength : Nat) (wire : Wire)
    (passes index : Nat) (hpasses : outputLength ≤ 32 * index + passes) :
    (Android.hkdfExpandLoop prk info outputLength passes (hkdfBlock primitives.hmac prk info index)
        ((hkdfStream primitives.hmac prk info index).take outputLength) (index + 1)).Evaluates
      (standardAnswer primitives clock) wire (hkdfExpand primitives.hmac prk info outputLength)
      wire := by
  have hcopied : ((hkdfStream primitives.hmac prk info index).take outputLength).length =
      min outputLength (32 * index) := by simp
  induction passes generalizing index with
  | zero =>
      unfold Android.hkdfExpandLoop
      rw [if_neg (by omega), hkdfExpand_eq_take _ _ _ (by omega)]
      exact Prog.evaluates_ret _ wire
  | succ passes ih =>
      unfold Android.hkdfExpandLoop
      split
      · next hmore =>
          have hblock : (Android.mac prk (hkdfBlock primitives.hmac prk info index ++ info ++
              [UInt8.ofNat (index + 1)])).Evaluates (standardAnswer primitives clock) wire
              (hkdfBlock primitives.hmac prk info (index + 1)) wire := mac_evaluates _ _ prk _ wire
          refine hblock.bind ?_
          dsimp only
          rw [hkdfStream_take_succ _ _ _ (by omega)]
          exact ih (index + 1) (by omega) (by simp)
      · rw [hkdfExpand_eq_take _ _ _ (by omega)]
        exact Prog.evaluates_ret _ wire

/-- The loop written out in `ControlProtocol.kt` is HKDF-Expand. -/
theorem android_hkdfExpand_evaluates (prk info : Bytes) {outputLength : Nat}
    (h : outputLength ≤ 255 * 32) (wire : Wire) :
    (Android.hkdfExpand prk info outputLength).Evaluates (standardAnswer primitives clock) wire
      (hkdfExpand primitives.hmac prk info outputLength) wire := by
  have hempty : (hkdfStream primitives.hmac prk info 0).take outputLength = [] := by
    rw [hkdfStream, List.take_nil]
  have hloop : (Android.hkdfExpandLoop prk info outputLength outputLength []
      ((hkdfStream primitives.hmac prk info 0).take outputLength) 1).Evaluates
      (standardAnswer primitives clock) wire (hkdfExpand primitives.hmac prk info outputLength)
      wire := hkdfExpandLoop_evaluates prk info outputLength wire outputLength 0 (by omega)
  rw [hempty] at hloop
  unfold Android.hkdfExpand
  rw [Int.toNat_natCast]
  exact (Android.require_evaluates (by simp) wire).bind
    ((Android.require_evaluates (decide_eq_true (by omega)) wire).bind hloop)

end KeySchedule

section Derivation

variable {primitives : Primitives} {clock : Time}

/-- Both programs come to this value, whatever is on the wire. -/
def BothCompute (primitives : Primitives) (clock : Time)
    (linux : Program (Option (Block 32))) (android : Program Bytes) : Prop :=
  ∃ value : Block 32, ∀ wire,
    linux.Evaluates (standardAnswer primitives clock) wire (some value) wire ∧
      android.Evaluates (standardAnswer primitives clock) wire value.val wire

theorem proof_agrees (secret serverNonce clientNonce : Block 32) (domain : Bytes) :
    BothCompute primitives clock (Linux.makeProof secret domain serverNonce clientNonce)
      (Android.proof secret.val domain serverNonce.val clientNonce.val) :=
  ⟨_, fun wire => ⟨Prog.evaluates_perform rfl, mac_evaluates _ _ _ _ wire⟩⟩

theorem sessionKey_agrees (secret serverNonce clientNonce : Block 32) :
    BothCompute primitives clock (Linux.deriveSessionKey secret serverNonce clientNonce)
      (Android.deriveSessionKey secret.val serverNonce.val clientNonce.val) := by
  refine ⟨hkdfKey primitives.hmac (hkdfExtract primitives.hmac
    (serverNonce.val ++ clientNonce.val) secret.val).val sessionInfo, fun wire => ⟨?_, ?_⟩⟩
  · exact Prog.evaluates_perform rfl
  · unfold Android.deriveSessionKey
    refine (Android.require_evaluates (decide_eq_true secret.property) wire).bind
      ((Android.require_evaluates (decide_eq_true serverNonce.property) wire).bind
        ((Android.require_evaluates (decide_eq_true clientNonce.property) wire).bind ?_))
    exact (mac_evaluates _ _ (serverNonce.val ++ clientNonce.val) secret.val wire).bind
      (android_hkdfExpand_evaluates _ _ (by decide) wire)

theorem encodeHex_eq (data : Bytes) :
    Linux.encodeHex data = data.flatMap fun value =>
      let byte := value.toNat &&& 0xff
      [Android.HEX.getD (byte >>> 4) 0, Android.HEX.getD (byte &&& 0x0f) 0] := by
  unfold Linux.encodeHex
  congr 1
  funext byte
  dsimp only
  rw [Android.and_0xff, UInt8.toNat_shiftRight, UInt8.toNat_and]
  rfl

theorem mediaPassword_agrees (sessionKey : Block 32) :
    ∃ password, ∀ wire,
      (Linux.deriveMediaPassword sessionKey).Evaluates (standardAnswer primitives clock) wire
        password wire ∧
      (Android.deriveMediaPassword sessionKey.val).Evaluates (standardAnswer primitives clock) wire
        password wire := by
  refine ⟨Linux.encodeHex (primitives.hmac sessionKey.val Linux.MEDIA_CREDENTIAL_DOMAIN).val,
    fun wire => ⟨Prog.evaluates_perform_bind rfl (Prog.evaluates_ret _ wire), ?_⟩⟩
  unfold Android.deriveMediaPassword
  rw [encodeHex_eq]
  exact (Android.require_evaluates (decide_eq_true sessionKey.property) wire).bind
    ((mac_evaluates _ _ sessionKey.val _ wire).bind (Prog.evaluates_ret _ wire))

/-- The key under which one side sends. -/
def directionKey (primitives : Primitives) (sessionKey : Block 32) (serverSide : Bool) : Block 32 :=
  hkdfKey primitives.hmac sessionKey.val (directionInfo serverSide)

/-- The channel of one side with its counters at `sent` and `accepted`. -/
def linuxChannel (primitives : Primitives) (sessionKey : Block 32) (serverSide : Bool)
    (sent accepted : Nat) : Linux.AuthenticatedChannel where
  sendKey := directionKey primitives sessionKey serverSide
  receiveKey := directionKey primitives sessionKey (!serverSide)
  sendSequence := .ofNat sent
  receiveSequence := .ofNat accepted
  serverSide := serverSide

def androidChannel (primitives : Primitives) (sessionKey : Block 32) (serverSide : Bool)
    (sent accepted : Nat) : Android.AuthenticatedChannel where
  sessionKey := sessionKey.val
  sendKey := (directionKey primitives sessionKey serverSide).val
  receiveKey := (directionKey primitives sessionKey (!serverSide)).val
  sendSequence := sent
  receiveSequence := accepted
  serverSide := serverSide

theorem linux_ofSessionKey_evaluates (sessionKey : Block 32) (serverSide : Bool) (wire : Wire) :
    (Linux.AuthenticatedChannel.ofSessionKey sessionKey serverSide).Evaluates
      (standardAnswer primitives clock) wire (linuxChannel primitives sessionKey serverSide 0 0)
      wire := by
  unfold Linux.AuthenticatedChannel.ofSessionKey
  refine Prog.evaluates_perform_bind rfl (Prog.evaluates_perform_bind rfl ?_)
  cases serverSide <;> exact Prog.evaluates_ret _ wire

theorem android_directionalKey_evaluates (sessionKey : Block 32) (info : Bytes) (wire : Wire) :
    (Android.deriveDirectionalKey sessionKey.val info).Evaluates (standardAnswer primitives clock)
      wire (hkdfKey primitives.hmac sessionKey.val info).val wire :=
  android_hkdfExpand_evaluates sessionKey.val info (by decide) wire

theorem android_sendInfo_eq (serverSide : Bool) :
    (if serverSide then Android.SERVER_TO_CLIENT_KDF_INFO
      else Android.CLIENT_TO_SERVER_KDF_INFO) = directionInfo serverSide := rfl

theorem android_receiveInfo_eq (serverSide : Bool) :
    (if serverSide then Android.CLIENT_TO_SERVER_KDF_INFO
      else Android.SERVER_TO_CLIENT_KDF_INFO) = directionInfo (!serverSide) := by
  unfold directionInfo
  cases serverSide with
  | false => rw [Bool.not_false, if_pos rfl, if_neg Bool.false_ne_true]; rfl
  | true => rw [Bool.not_true, if_pos rfl, if_neg Bool.false_ne_true]; rfl

theorem android_ofSessionKey_evaluates (sessionKey : Block 32) (serverSide : Bool) (wire : Wire) :
    (Android.AuthenticatedChannel.ofSessionKey sessionKey.val serverSide).Evaluates
      (standardAnswer primitives clock) wire (androidChannel primitives sessionKey serverSide 0 0)
      wire := by
  unfold Android.AuthenticatedChannel.ofSessionKey
  rw [android_sendInfo_eq, android_receiveInfo_eq]
  refine (Android.require_evaluates (decide_eq_true sessionKey.property) wire).bind ?_
  refine (android_directionalKey_evaluates sessionKey _ wire).bind ?_
  refine (android_directionalKey_evaluates sessionKey _ wire).bind ?_
  exact Prog.evaluates_ret _ wire

end Derivation

section Frames

variable {primitives : Primitives} {clock : Time}

/-- The frame that carries a payload as message `sequence` of one side. -/
def sealedFrame (primitives : Primitives) (key : Bytes) (serverSide : Bool) (sequence : Nat)
    (type : UInt8) (payload : Bytes) : Frame where
  type := type
  payload := sealedPayload sequence
    (primitives.encrypt key (gcmNonce serverSide sequence)
      (encodeHeader type (payload.length + 24)) payload).val

theorem sealedFrame_payload_length (primitives : Primitives) (key : Bytes) (serverSide : Bool)
    (sequence : Nat) (type : UInt8) (payload : Bytes) :
    (sealedFrame primitives key serverSide sequence type payload).payload.length =
      payload.length + 24 := by
  rw [sealedFrame, sealedPayload, List.length_append, beBytes_length,
    (primitives.encrypt _ _ _ _).property]
  omega

/-- Ciphertext and tag of the frame, and that they open again. -/
theorem sealedFrame_fields (primitives : Primitives) (key : Bytes) (serverSide : Bool)
    (sequence : Nat) (type : UInt8) (payload : Bytes) :
    ∃ ciphertext tag : Bytes, ciphertext.length = payload.length ∧ tag.length = 16 ∧
      sealedFrame primitives key serverSide sequence type payload =
        ⟨type, beBytes 8 sequence ++ (ciphertext ++ tag)⟩ ∧
      primitives.decrypt key (gcmNonce serverSide sequence)
        (encodeHeader type (ciphertext.length + 24)) ciphertext tag = some payload := by
  obtain ⟨encrypted, hencrypted⟩ : ∃ encrypted, primitives.encrypt key
    (gcmNonce serverSide sequence) (encodeHeader type (payload.length + 24)) payload =
      encrypted := ⟨_, rfl⟩
  have hopen := primitives.decrypt_encrypt key (gcmNonce serverSide sequence)
    (encodeHeader type (payload.length + 24)) payload
  have hlength : (encrypted.val.take payload.length).length = payload.length := by
    rw [List.length_take, encrypted.property]
    omega
  refine ⟨encrypted.val.take payload.length, encrypted.val.drop payload.length, hlength, ?_, ?_, ?_⟩
  · rw [List.length_drop, encrypted.property]
    omega
  · rw [sealedFrame, hencrypted, List.take_append_drop, sealedPayload]
  · rw [hlength, ← hencrypted]
    exact hopen

theorem encodeFrame_eq {frame : Frame} {size : Nat} (h : frame.payload.length = size) :
    encodeFrame frame = encodeHeader frame.type size ++ frame.payload := by
  rw [encodeFrame, h]

theorem linux_send_evaluates {channel : Linux.AuthenticatedChannel} {type : UInt8}
    {payload : Bytes} (timeoutMs : Int) (wire : Wire)
    (hsequence : channel.sendSequence ≠ 0xffffffffffffffff) (hsize : payload.length + 24 ≤ 65536) :
    (channel.send type payload timeoutMs).Evaluates (standardAnswer primitives clock) wire
      (true, { channel with sendSequence := channel.sendSequence + 1 })
      { wire with outgoing := wire.outgoing ++ encodeFrame (sealedFrame primitives
        channel.sendKey.val channel.serverSide channel.sendSequence.toNat type payload) } := by
  obtain ⟨deadline, hdeadline⟩ := linux_deadline_evaluates primitives clock timeoutMs wire
  have hlength := sealedFrame_payload_length primitives channel.sendKey.val channel.serverSide
    channel.sendSequence.toNat type payload
  have hnonempty : (sealedFrame primitives channel.sendKey.val channel.serverSide
      channel.sendSequence.toNat type payload).payload ≠ [] := by
    intro h
    rw [h] at hlength
    simp at hlength
  rw [Linux.AuthenticatedChannel.send_eq hsequence hsize, encodeFrame, ← List.append_assoc]
  refine Prog.evaluates_perform_bind rfl ?_
  have hsend := Linux.sendFrame_evaluates (hlength.trans_le hsize) hdeadline
    (standard_takes primitives clock timeoutMs deadline wire (encodeHeader type _))
    (fun h => absurd h hnonempty) (fun _ => standard_takes primitives clock _ _ _ _)
  exact hsend.bind (Prog.evaluates_ret _ _)

theorem android_send_evaluates {channel : Android.AuthenticatedChannel} (type : UInt8)
    {payload : Bytes} (wire : Wire) (hrange : channel.InRange)
    (hsequence : channel.sendSequence ≠ Android.LONG_MAX_VALUE)
    (hsize : payload.length + 24 ≤ 65536) :
    (channel.send type.toNat payload).Evaluates (standardAnswer primitives clock) wire
      { channel with sendSequence := channel.sendSequence + 1 }
      { wire with outgoing := wire.outgoing ++ encodeFrame (sealedFrame primitives
        channel.sendKey channel.serverSide channel.sendSequence.toNat type payload) } := by
  have hlength := sealedFrame_payload_length primitives channel.sendKey channel.serverSide
    channel.sendSequence.toNat type payload
  have hsmall : Android.wrapInt (payload.length + Android.ENCRYPTED_OVERHEAD) ≤
      Android.MAX_PAYLOAD := by
    have hoverhead : (Android.ENCRYPTED_OVERHEAD : Int) = 24 := rfl
    rw [Android.wrapInt, hoverhead, Android.MAX_PAYLOAD, Int.bmod_def]
    split <;> omega
  rw [Android.AuthenticatedChannel.send_eq _ hrange hsequence hsmall, Android.toByte_natCast,
    encodeFrame, ← List.append_assoc]
  have hencrypt : (Android.encrypt channel.sendKey
      (gcmNonce channel.serverSide channel.sendSequence.toNat)
      (encodeHeader type (payload.length + 24)) payload).Evaluates
      (standardAnswer primitives clock) wire (primitives.encrypt channel.sendKey
        (gcmNonce channel.serverSide channel.sendSequence.toNat)
        (encodeHeader type (payload.length + 24)) payload).val wire :=
    Prog.evaluates_perform_bind rfl (Prog.evaluates_ret _ wire)
  have hwrite := Android.writeFrame_evaluates (hlength.trans_le hsize)
    (standard_takes primitives clock (-1) Android.LONG_MAX_VALUE wire
      (encodeHeader (Android.toByte type.toNat) _))
    (standard_takes primitives clock _ _ _ _)
  rw [Android.toByte_natCast] at hwrite
  exact hencrypt.bind (hwrite.bind (Prog.evaluates_ret _ _))

theorem linux_receive_evaluates {channel : Linux.AuthenticatedChannel} {type : UInt8}
    {payload : Bytes} (timeoutMs : Int) (rest outgoing : Bytes)
    (hsequence : channel.receiveSequence ≠ 0xffffffffffffffff)
    (hsize : payload.length + 24 ≤ 65536) :
    (channel.receive timeoutMs).Evaluates (standardAnswer primitives clock)
      ⟨encodeFrame (sealedFrame primitives channel.receiveKey.val (!channel.serverSide)
        channel.receiveSequence.toNat type payload) ++ rest, outgoing⟩
      (some ⟨type, payload⟩, { channel with receiveSequence := channel.receiveSequence + 1 })
      ⟨rest, outgoing⟩ := by
  have hlength := sealedFrame_payload_length primitives channel.receiveKey.val
    (!channel.serverSide) channel.receiveSequence.toNat type payload
  obtain ⟨ciphertext, tag, -, htag, hframe, hdecrypt⟩ := sealedFrame_fields primitives
    channel.receiveKey.val (!channel.serverSide) channel.receiveSequence.toNat type payload
  rw [hframe] at hlength ⊢
  obtain ⟨deadline, hdeadline⟩ := linux_deadline_evaluates primitives clock timeoutMs
    ⟨encodeFrame ⟨type, beBytes 8 channel.receiveSequence.toNat ++ (ciphertext ++ tag)⟩ ++ rest,
      outgoing⟩
  have hnumber : beNat (beBytes 8 channel.receiveSequence.toNat) =
      channel.receiveSequence.toNat := beNat_beBytes channel.receiveSequence.toNat_lt
  have harrives : (Linux.receiveFrame timeoutMs).Evaluates (standardAnswer primitives clock)
      ⟨encodeFrame ⟨type, beBytes 8 channel.receiveSequence.toNat ++ (ciphertext ++ tag)⟩ ++ rest,
        outgoing⟩
      (some ⟨type, beBytes 8 channel.receiveSequence.toNat ++ (ciphertext ++ tag)⟩)
      ⟨rest, outgoing⟩ := by
    refine Linux.receiveFrame_evaluates (hlength.trans_le hsize) hdeadline ?_ (fun h => ?_)
      (fun _ => standard_delivers _ _ _ _ _ _ _)
    · rw [encodeFrame, List.append_assoc]
      exact standard_delivers _ _ _ _ _ _ _
    · have hempty := hlength.symm.trans (congrArg List.length h)
      simp at hempty
  unfold Linux.AuthenticatedChannel.receive
  rw [if_neg hsequence]
  refine harrives.bind ?_
  dsimp only
  rw [Linux.AuthenticatedChannel.openFrame_sealed channel type (beBytes_length 8 _) htag,
    if_neg (not_not.mpr hnumber)]
  exact Prog.evaluates_perform_bind (congrArg (fun opened => some (opened, _)) hdecrypt)
    (Prog.evaluates_ret _ _)

theorem android_receive_evaluates {channel : Android.AuthenticatedChannel} {type : UInt8}
    {payload : Bytes} (timeoutMs : Int) (rest outgoing : Bytes) (hrange : channel.InRange)
    (hsequence : channel.receiveSequence ≠ Android.LONG_MAX_VALUE)
    (hsize : payload.length + 24 ≤ 65536) :
    (channel.receive timeoutMs).Evaluates (standardAnswer primitives clock)
      ⟨encodeFrame (sealedFrame primitives channel.receiveKey (!channel.serverSide)
        channel.receiveSequence.toNat type payload) ++ rest, outgoing⟩
      (⟨type.toNat, payload⟩, { channel with receiveSequence := channel.receiveSequence + 1 })
      ⟨rest, outgoing⟩ := by
  have hlength := sealedFrame_payload_length primitives channel.receiveKey
    (!channel.serverSide) channel.receiveSequence.toNat type payload
  obtain ⟨ciphertext, tag, -, htag, hframe, hdecrypt⟩ := sealedFrame_fields primitives
    channel.receiveKey (!channel.serverSide) channel.receiveSequence.toNat type payload
  rw [hframe] at hlength ⊢
  obtain ⟨deadline, hdeadline⟩ := android_deadline_evaluates primitives clock timeoutMs
    ⟨encodeFrame ⟨type, beBytes 8 channel.receiveSequence.toNat ++ (ciphertext ++ tag)⟩ ++ rest,
      outgoing⟩
  have hnumber : beNat (beBytes 8 channel.receiveSequence.toNat) =
      channel.receiveSequence.toNat := by
    have hmax := hrange.receiveSequence.2
    rw [Android.LONG_MAX_VALUE] at hmax
    exact beNat_beBytes (by omega)
  have harrives : (Android.readFrame timeoutMs).Evaluates (standardAnswer primitives clock)
      ⟨encodeFrame ⟨type, beBytes 8 channel.receiveSequence.toNat ++ (ciphertext ++ tag)⟩ ++ rest,
        outgoing⟩
      ⟨type.toNat, beBytes 8 channel.receiveSequence.toNat ++ (ciphertext ++ tag)⟩
      ⟨rest, outgoing⟩ := by
    refine Android.readFrame_evaluates (hlength.trans_le hsize) hdeadline ?_ (fun h => ?_)
      (fun _ => standard_delivers _ _ _ _ _ _ _)
    · rw [encodeFrame, List.append_assoc]
      exact standard_delivers _ _ _ _ _ _ _
    · have hempty := hlength.symm.trans (congrArg List.length h)
      simp at hempty
  have hdecrypts : (Android.decrypt channel.receiveKey
      (gcmNonce (!channel.serverSide) channel.receiveSequence.toNat)
      (encodeHeader type (ciphertext.length + 24)) (ciphertext ++ tag)).Evaluates
      (standardAnswer primitives clock) ⟨rest, outgoing⟩ payload ⟨rest, outgoing⟩ := by
    rw [Android.decrypt, Android.AuthenticatedChannel.cipherDoFinal_append _ _ _ _ htag]
    exact Prog.evaluates_perform_bind (congrArg (fun opened => some (opened, _)) hdecrypt)
      (Prog.evaluates_ret _ _)
  unfold Android.AuthenticatedChannel.receive
  rw [if_neg hsequence]
  refine harrives.bind ?_
  rw [Android.AuthenticatedChannel.openFrame_sealed hrange (beBytes_length 8 _) htag,
    if_neg (not_not.mpr hnumber), Android.toByte_natCast,
    Android.wrapLong_succ hrange.receiveSequence.1 hrange.receiveSequence.2 hsequence]
  exact hdecrypts.bind (Prog.evaluates_ret _ _)

end Frames

section Agreement

variable {primitives : Primitives} {clock : Time} {sessionKey : Block 32} {sent accepted : Nat}
  {type : UInt8} {payload : Bytes}

theorem linux_counter_ne_max {n : Nat} (h : n < 2 ^ 63 - 1) :
    UInt64.ofNat n ≠ 0xffffffffffffffff ∧ (UInt64.ofNat n).toNat = n := by
  have htoNat : (UInt64.ofNat n).toNat = n := by
    rw [UInt64.toNat_ofNat']
    exact Nat.mod_eq_of_lt (by omega)
  refine ⟨fun hmax => ?_, htoNat⟩
  have hvalue := congrArg UInt64.toNat hmax
  rw [htoNat] at hvalue
  change n = 2 ^ 64 - 1 at hvalue
  omega

theorem linux_counter_succ (n : Nat) : UInt64.ofNat n + 1 = UInt64.ofNat (n + 1) := by
  apply UInt64.toNat_inj.mp
  rw [UInt64.toNat_add, UInt64.toNat_ofNat', UInt64.toNat_ofNat', UInt64.toNat_one]
  omega

theorem androidChannel_inRange (serverSide : Bool) (hsent : sent ≤ 2 ^ 63 - 1)
    (haccepted : accepted ≤ 2 ^ 63 - 1) :
    (androidChannel primitives sessionKey serverSide sent accepted).InRange := by
  constructor <;> simp only [androidChannel, Android.LONG_MAX_VALUE] <;> omega

/-- What one side sends as message `n`. -/
def messageBytes (primitives : Primitives) (sessionKey : Block 32) (serverSide : Bool) (n : Nat)
    (type : UInt8) (payload : Bytes) : Bytes :=
  encodeFrame (sealedFrame primitives (directionKey primitives sessionKey serverSide).val
    serverSide n type payload)

theorem linuxChannel_send (serverSide : Bool) (hsent : sent < 2 ^ 63 - 1)
    (hsize : payload.length + 24 ≤ 65536) (timeoutMs : Int) (wire : Wire) :
    ((linuxChannel primitives sessionKey serverSide sent accepted).send type payload
        timeoutMs).Evaluates (standardAnswer primitives clock) wire
      (true, linuxChannel primitives sessionKey serverSide (sent + 1) accepted)
      { wire with outgoing := wire.outgoing ++
          messageBytes primitives sessionKey serverSide sent type payload } := by
  obtain ⟨hmax, hvalue⟩ := linux_counter_ne_max hsent
  have hsend : ((linuxChannel primitives sessionKey serverSide sent accepted).send type payload
      timeoutMs).Evaluates (standardAnswer primitives clock) wire _ _ :=
    linux_send_evaluates timeoutMs wire hmax hsize
  simp only [linuxChannel, hvalue, linux_counter_succ] at hsend
  exact hsend

theorem androidChannel_send (serverSide : Bool) (hsent : sent < 2 ^ 63 - 1)
    (haccepted : accepted ≤ 2 ^ 63 - 1) (hsize : payload.length + 24 ≤ 65536) (wire : Wire) :
    ((androidChannel primitives sessionKey serverSide sent accepted).send type.toNat
        payload).Evaluates (standardAnswer primitives clock) wire
      (androidChannel primitives sessionKey serverSide (sent + 1) accepted)
      { wire with outgoing := wire.outgoing ++
          messageBytes primitives sessionKey serverSide sent type payload } := by
  have hmax : (sent : Int) ≠ Android.LONG_MAX_VALUE := by
    rw [Android.LONG_MAX_VALUE]
    omega
  have hsend : ((androidChannel primitives sessionKey serverSide sent accepted).send type.toNat
      payload).Evaluates (standardAnswer primitives clock) wire _ _ :=
    android_send_evaluates type wire (androidChannel_inRange serverSide hsent.le haccepted) hmax
      hsize
  simp only [androidChannel, Int.toNat_natCast] at hsend
  exact hsend

theorem linuxChannel_receive (serverSide : Bool) (haccepted : accepted < 2 ^ 63 - 1)
    (hsize : payload.length + 24 ≤ 65536) (timeoutMs : Int) (rest outgoing : Bytes) :
    ((linuxChannel primitives sessionKey (!serverSide) sent accepted).receive timeoutMs).Evaluates
      (standardAnswer primitives clock)
      ⟨messageBytes primitives sessionKey serverSide accepted type payload ++ rest, outgoing⟩
      (some ⟨type, payload⟩, linuxChannel primitives sessionKey (!serverSide) sent (accepted + 1))
      ⟨rest, outgoing⟩ := by
  obtain ⟨hmax, hvalue⟩ := linux_counter_ne_max haccepted
  have hreceive : ((linuxChannel primitives sessionKey (!serverSide) sent accepted).receive
      timeoutMs).Evaluates (standardAnswer primitives clock) _ (some ⟨type, payload⟩, _) _ :=
    linux_receive_evaluates timeoutMs rest outgoing hmax hsize
  simp only [linuxChannel, hvalue, linux_counter_succ, Bool.not_not] at hreceive ⊢
  exact hreceive

theorem androidChannel_receive (serverSide : Bool) (hsent : sent ≤ 2 ^ 63 - 1)
    (haccepted : accepted < 2 ^ 63 - 1) (hsize : payload.length + 24 ≤ 65536) (timeoutMs : Int)
    (rest outgoing : Bytes) :
    ((androidChannel primitives sessionKey (!serverSide) sent accepted).receive
        timeoutMs).Evaluates (standardAnswer primitives clock)
      ⟨messageBytes primitives sessionKey serverSide accepted type payload ++ rest, outgoing⟩
      (⟨type.toNat, payload⟩,
        androidChannel primitives sessionKey (!serverSide) sent (accepted + 1))
      ⟨rest, outgoing⟩ := by
  have hmax : (accepted : Int) ≠ Android.LONG_MAX_VALUE := by
    rw [Android.LONG_MAX_VALUE]
    omega
  have hreceive : ((androidChannel primitives sessionKey (!serverSide) sent accepted).receive
      timeoutMs).Evaluates (standardAnswer primitives clock) _ (⟨type.toNat, payload⟩, _) _ :=
    android_receive_evaluates timeoutMs rest outgoing
      (androidChannel_inRange (!serverSide) hsent haccepted.le) hmax hsize
  simp only [androidChannel, Int.toNat_natCast, Bool.not_not] at hreceive ⊢
  exact hreceive

/-- For every secret and nonces both sides come to the same proofs and session
key; for every session key to the same media password and the same channels;
and then what either sends as message `n` are the same bytes, which either
peer's `receive` turns back into the message. `m` is the channels' other
counter. -/
theorem implementations_agree (primitives : Primitives) (clock : Time)
    (secret serverNonce clientNonce sessionKey : Block 32) (serverSide : Bool) (type : UInt8)
    (payload : Bytes) (n m : Nat) (hn : n < 2 ^ 63 - 1) (hm : m ≤ 2 ^ 63 - 1)
    (hpayload : payload.length ≤ 65536 - 24) :
    BothCompute primitives clock
      (Linux.makeProof secret Linux.CLIENT_PROOF_DOMAIN serverNonce clientNonce)
      (Android.proof secret.val Android.CLIENT_PROOF_DOMAIN serverNonce.val clientNonce.val) ∧
    BothCompute primitives clock
      (Linux.makeProof secret Linux.SERVER_PROOF_DOMAIN serverNonce clientNonce)
      (Android.proof secret.val Android.SERVER_PROOF_DOMAIN serverNonce.val clientNonce.val) ∧
    BothCompute primitives clock (Linux.deriveSessionKey secret serverNonce clientNonce)
      (Android.deriveSessionKey secret.val serverNonce.val clientNonce.val) ∧
    (∃ password, ∀ wire,
      (Linux.deriveMediaPassword sessionKey).Evaluates (standardAnswer primitives clock) wire
        password wire ∧
      (Android.deriveMediaPassword sessionKey.val).Evaluates (standardAnswer primitives clock) wire
        password wire) ∧
    (∀ side wire,
      (Linux.AuthenticatedChannel.ofSessionKey sessionKey side).Evaluates
        (standardAnswer primitives clock) wire (linuxChannel primitives sessionKey side 0 0) wire ∧
      (Android.AuthenticatedChannel.ofSessionKey sessionKey.val side).Evaluates
        (standardAnswer primitives clock) wire (androidChannel primitives sessionKey side 0 0)
        wire) ∧
    ∃ bytes, ∀ timeoutMs rest outgoing,
      ((linuxChannel primitives sessionKey serverSide n m).send type payload timeoutMs).Evaluates
        (standardAnswer primitives clock) ⟨rest, outgoing⟩
        (true, linuxChannel primitives sessionKey serverSide (n + 1) m)
        ⟨rest, outgoing ++ bytes⟩ ∧
      ((androidChannel primitives sessionKey serverSide n m).send type.toNat payload).Evaluates
        (standardAnswer primitives clock) ⟨rest, outgoing⟩
        (androidChannel primitives sessionKey serverSide (n + 1) m) ⟨rest, outgoing ++ bytes⟩ ∧
      ((linuxChannel primitives sessionKey (!serverSide) m n).receive timeoutMs).Evaluates
        (standardAnswer primitives clock) ⟨bytes ++ rest, outgoing⟩
        (some ⟨type, payload⟩, linuxChannel primitives sessionKey (!serverSide) m (n + 1))
        ⟨rest, outgoing⟩ ∧
      ((androidChannel primitives sessionKey (!serverSide) m n).receive timeoutMs).Evaluates
        (standardAnswer primitives clock) ⟨bytes ++ rest, outgoing⟩
        (⟨type.toNat, payload⟩, androidChannel primitives sessionKey (!serverSide) m (n + 1))
        ⟨rest, outgoing⟩ := by
  have hsize : payload.length + 24 ≤ 65536 := by omega
  exact ⟨proof_agrees _ _ _ _, proof_agrees _ _ _ _, sessionKey_agrees _ _ _,
    mediaPassword_agrees sessionKey,
    fun side wire => ⟨linux_ofSessionKey_evaluates sessionKey side wire,
      android_ofSessionKey_evaluates sessionKey side wire⟩,
    messageBytes primitives sessionKey serverSide n type payload,
    fun timeoutMs rest outgoing =>
      ⟨linuxChannel_send serverSide hn hsize timeoutMs ⟨rest, outgoing⟩,
        androidChannel_send serverSide hn hm hsize ⟨rest, outgoing⟩,
        linuxChannel_receive serverSide hn hsize timeoutMs rest outgoing,
        androidChannel_receive serverSide hm hn hsize timeoutMs rest outgoing⟩⟩

end Agreement

section Session

/-!
The values of one session, with which the theorems of this development are
applied to concrete inputs.
-/

def block (size value : Nat) : Block size := ⟨beBytes size value, beBytes_length size value⟩

def sampleSecret : Block 32 := ⟨List.replicate 32 0x11, List.length_replicate⟩
def sampleServerNonce : Block 32 := ⟨List.replicate 32 0x22, List.length_replicate⟩
def sampleClientNonce : Block 32 := ⟨List.replicate 32 0x33, List.length_replicate⟩

def sampleClientProof : Block 32 :=
  block 32 0x7c05061a0a2e26528b16339aa2e3babf426b57578146d55a96418d17858d58a7

def sampleServerProof : Block 32 :=
  block 32 0xd39d67772fa75677a007b1110b4d23e11cc4fc9ffe6c539ff88058e6e40d05da

/-- HMAC with the salt `serverNonce ++ clientNonce`. -/
def samplePrk : Block 32 :=
  block 32 0x83d3fd5568d1f089c0e3c6bda0286e33b70b181de83be31fca1694634b234698

def sampleSessionKey : Block 32 :=
  block 32 0x69fec416bc3c84e5876dfe2ff45b371a5641f4cf07e17f4402f499d9139878cb

/-- HMAC-SHA256 on what the session authenticates and derives. -/
def sampleHmac (key data : Bytes) : Block 32 :=
  if key = sampleSecret.val then
    if data = Linux.CLIENT_PROOF_DOMAIN ++ sampleServerNonce.val ++ sampleClientNonce.val then
      sampleClientProof
    else sampleServerProof
  else if key = sampleServerNonce.val ++ sampleClientNonce.val then samplePrk
  else if key = samplePrk.val then sampleSessionKey
  else if data = directionInfo true ++ [1] then
    block 32 0x580e4f60417e3b5f6e1c2dbe8dbc9bee4939dab0e0965a8fc8516b210bf25d2f
  else if data = directionInfo false ++ [1] then
    block 32 0x347de45d24289263692d6b4ad1797a13f96c9723c0027310927e4f4bdcc25b81
  else block 32 0x172503ba3894398ef3f010f0c2a4f0772d073d8df100adb5a2b49c0cae3c3441

/-- The keystream of each side's first message. -/
def sampleStream (_ nonce : Bytes) (index : Nat) : UInt8 :=
  (if nonce = gcmNonce false 0 then
    beBytes 36 0x360aa5da750bfb090de8c28769a688b6389408cd302ecb6e222e7ed7dea0b29e9c8d7e36 ++
      beBytes 36 0x0a4179904b5613a5bca494b5f8e385d379d70e61b7d41ceba326cc096f076de009fb9dc1
  else
    beBytes 40 0xf50cbd9b05a51dc4e0570f6ef02a76937a6e03394cb1f9c71d8dda5baa55ea5595f602a6a6243706).getD
    index 0

/-- The tags of a descriptor and of an activation sent first. -/
def sampleTag (_ nonce _ _ : Bytes) : Block 16 :=
  if nonce = gcmNonce false 0 then block 16 0x953505c79f076e190e8d9982b7e56891
  else block 16 0xbf468eef6fbab80727609b018b5012ab

def samplePrimitives : Primitives := .counterMode sampleHmac sampleStream sampleTag

/-- A descriptor of a camera named `P` without resolutions and filters. -/
def sampleDescriptor : Bytes :=
  [0, 1, 0x50, 0, 58] ++ ascii "rtsp://10.0.0.2:8554/live/0123456789abcdef0123456789abcdef" ++
    [0, 0, 0, 0, 0, 0]

example : directionKey samplePrimitives sampleSessionKey false =
    block 32 0x347de45d24289263692d6b4ad1797a13f96c9723c0027310927e4f4bdcc25b81 := by
  decide +kernel

/-- The phone's first message, from either implementation to either. -/
theorem implementations_agree_descriptor :
    ∃ bytes, ∀ timeoutMs rest outgoing,
      ((linuxChannel samplePrimitives sampleSessionKey false 0 0).send 4 sampleDescriptor
          timeoutMs).Evaluates (standardAnswer samplePrimitives 0) ⟨rest, outgoing⟩
        (true, linuxChannel samplePrimitives sampleSessionKey false 1 0)
        ⟨rest, outgoing ++ bytes⟩ ∧
      ((androidChannel samplePrimitives sampleSessionKey false 0 0).send (4 : UInt8).toNat
          sampleDescriptor).Evaluates (standardAnswer samplePrimitives 0) ⟨rest, outgoing⟩
        (androidChannel samplePrimitives sampleSessionKey false 1 0) ⟨rest, outgoing ++ bytes⟩ ∧
      ((linuxChannel samplePrimitives sampleSessionKey true 0 0).receive timeoutMs).Evaluates
        (standardAnswer samplePrimitives 0) ⟨bytes ++ rest, outgoing⟩
        (some ⟨4, sampleDescriptor⟩, linuxChannel samplePrimitives sampleSessionKey true 0 1)
        ⟨rest, outgoing⟩ ∧
      ((androidChannel samplePrimitives sampleSessionKey true 0 0).receive timeoutMs).Evaluates
        (standardAnswer samplePrimitives 0) ⟨bytes ++ rest, outgoing⟩
        (⟨(4 : UInt8).toNat, sampleDescriptor⟩,
          androidChannel samplePrimitives sampleSessionKey true 0 1) ⟨rest, outgoing⟩ :=
  (implementations_agree samplePrimitives 0 sampleSecret sampleServerNonce sampleClientNonce
    sampleSessionKey false 4 sampleDescriptor 0 0 (by norm_num) (by norm_num)
    (by decide)).2.2.2.2.2

end Session

end OpenCam.Control
