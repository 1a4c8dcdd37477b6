import OpenCam.Linux.Controller

/-!
What a connection has done when `handleClient` sets its flag: the hello, the client's proof,
the deadline and the controller's own proof, in this order.
-/

namespace OpenCam.Linux

open Octets Interaction Control

section Framing

/-- A `sendFrame` that fails has completed the header at most. -/
theorem sendFrame_returns_false {type : UInt8} {payload : Bytes} {timeoutMs : Int} {trace : Trace}
    (run : Runs (sendFrame type payload timeoutMs) trace (.ret false)) :
    (written trace).length ≤ 10 := by
  unfold sendFrame at run
  split at run
  · obtain ⟨rfl, -⟩ := runs_ret_iff.mp run
    simp [written]
  obtain ⟨deadline, clock, writes, rfl, hclock, hwrites⟩ := returns_bind_iff.mp run
  rw [written_append, (deadlineFor_returns hclock).1, List.nil_append]
  obtain ⟨sent, rest, rfl, hrest⟩ := returns_perform_bind_iff.mp hwrites
  cases sent with
  | false =>
      obtain ⟨rfl, -⟩ := runs_ret_iff.mp hrest
      simp [written, Action.written]
  | true =>
      dsimp only at hrest
      split at hrest
      · simp at hrest
      · obtain rfl := returns_perform_iff.mp hrest
        simp [written, Action.written, makeHeader_eq]

end Framing

section Stages

variable {secret serverNonce clientNonce : Block 32} {handshake : Handshake}
  {pairingExpires : Time} {trace : Trace}

/-- The bytes under the client's proof. -/
def clientProofData (serverNonce clientNonce : Block 32) : Bytes :=
  CLIENT_PROOF_DOMAIN ++ serverNonce.val ++ clientNonce.val

/-- The bytes under the controller's proof. -/
def serverProofData (serverNonce clientNonce : Block 32) : Bytes :=
  SERVER_PROOF_DOMAIN ++ serverNonce.val ++ clientNonce.val

/-- A fresh nonce was sent, and a frame of 64 bytes came back whose second half is the proof
for this nonce and its first half. -/
def Verified (secret serverNonce clientNonce : Block 32) (trace : Trace) : Prop :=
  ∃ (hello auth : Trace) (proof : Block 32) (clientProof : Bytes)
    (equal : {equal : Bool // equal = true ↔ proof.val = clientProof}),
    trace = ⟨.randBytes, some serverNonce⟩ :: (hello ++ (auth ++
      [⟨.hmac secret.val (clientProofData serverNonce clientNonce), some proof⟩,
        ⟨.constantTimeEqual proof.val clientProof, equal⟩])) ∧
    written hello = encodeFrame ⟨SERVER_HELLO, serverNonce.val⟩ ∧ received hello = [] ∧
    received auth = encodeFrame ⟨CLIENT_AUTH, clientNonce.val ++ clientProof⟩ ∧
    written auth = [] ∧ clientProof = proof.val

/-- The session key was derived and the controller's proof was sent. -/
def Proved (secret : Block 32) (handshake : Handshake) (trace : Trace) : Prop :=
  ∃ (proof : Block 32) (reply : Trace),
    trace = ⟨.hmac secret.val (serverProofData handshake.serverNonce handshake.clientNonce),
        some proof⟩ ::
      ⟨.hkdfExtractAndExpand (handshake.serverNonce.val ++ handshake.clientNonce.val) secret.val
        (cString SESSION_KDF_INFO), some handshake.sessionKey⟩ :: reply ∧
    written reply = encodeFrame ⟨SERVER_AUTH, proof.val⟩ ∧ received reply = []

/-- The whole handshake, with the reading of the clock that is before the deadline. -/
def Authenticated (secret : Block 32) (pairingExpires : Time) (handshake : Handshake)
    (trace : Trace) : Prop :=
  ∃ (verified proved : Trace) (now : Time),
    trace = verified ++ ⟨.now, now⟩ :: proved ∧
    Verified secret handshake.serverNonce handshake.clientNonce verified ∧
    now < pairingExpires ∧ Proved secret handshake proved

theorem constantTimeEqual_returns {left right : Bytes}
    (run : Runs (constantTimeEqual left right) trace (.ret true)) :
    ∃ equal : {equal : Bool // equal = true ↔ left = right},
      trace = [⟨.constantTimeEqual left right, equal⟩] ∧ left = right := by
  obtain ⟨equal, rest, rfl, hrest⟩ := returns_perform_bind_iff.mp run
  obtain ⟨rfl, hequal⟩ := runs_ret_iff.mp hrest
  have htrue : equal.val = true := by simpa using hequal.symm
  exact ⟨equal, rfl, equal.property.mp htrue⟩

theorem verifyClient_returns
    (run : Runs (verifyClient secret) trace (.ret (some (serverNonce, clientNonce)))) :
    Verified secret serverNonce clientNonce trace := by
  obtain ⟨drawn, tail, rfl, hdrawn⟩ := returns_perform_bind_iff.mp run
  cases drawn with
  | none => simp at hdrawn
  | some nonce =>
      obtain ⟨sent, hello, tail, rfl, hhello, hsent⟩ := returns_bind_iff.mp hdrawn
      cases sent with
      | false => simp at hsent
      | true =>
          obtain ⟨-, hwritten, hreceived⟩ := sendFrame_returns hhello
          obtain ⟨answer, auth, tail, rfl, hauth, hanswer⟩ := returns_bind_iff.mp hsent
          cases answer with
          | none => simp at hanswer
          | some authFrame =>
              obtain ⟨-, hread, hsilent⟩ := receiveFrame_returns hauth
              dsimp only at hanswer
              split at hanswer
              · simp at hanswer
              next htype =>
              split at hanswer
              · next hlength =>
                  obtain ⟨tag, tail, rfl, htag⟩ := returns_perform_bind_iff.mp hanswer
                  cases tag with
                  | none => simp at htag
                  | some proof =>
                      obtain ⟨equal, compare, rest, rfl, hcompare, hrest⟩ :=
                        returns_bind_iff.mp htag
                      cases equal with
                      | false => simp at hrest
                      | true =>
                          obtain ⟨rfl, hnonces⟩ := runs_ret_iff.mp hrest
                          cases hnonces
                          obtain ⟨equal, rfl, hsame⟩ := constantTimeEqual_returns hcompare
                          obtain ⟨type, payload⟩ := authFrame
                          obtain rfl : type = CLIENT_AUTH := not_not.mp htype
                          have hhalves : payload =
                              (firstNonce payload hlength).val ++ payload.drop NONCE_SIZE :=
                            (List.take_append_drop NONCE_SIZE payload).symm
                          refine ⟨hello, auth, proof, payload.drop NONCE_SIZE, equal, rfl, hwritten,
                            hreceived, ?_, hsilent, hsame.symm⟩
                          rw [hread, ← hhalves]
              · simp at hanswer

theorem proveServer_returns
    (run : Runs (proveServer secret serverNonce clientNonce) trace (.ret (some handshake))) :
    handshake.serverNonce = serverNonce ∧ handshake.clientNonce = clientNonce ∧
      Proved secret handshake trace := by
  obtain ⟨tag, tail, rfl, htag⟩ := returns_perform_bind_iff.mp run
  cases tag with
  | none => simp at htag
  | some proof =>
      obtain ⟨key, tail, rfl, hkey⟩ := returns_perform_bind_iff.mp htag
      cases key with
      | none => simp at hkey
      | some sessionKey =>
          obtain ⟨sent, reply, rest, rfl, hreply, hsent⟩ := returns_bind_iff.mp hkey
          cases sent with
          | false => simp at hsent
          | true =>
              obtain ⟨rfl, hhandshake⟩ := runs_ret_iff.mp hsent
              cases hhandshake
              obtain ⟨-, hwritten, hreceived⟩ := sendFrame_returns hreply
              exact ⟨rfl, rfl, proof, reply, by rw [List.append_nil]; rfl, hwritten, hreceived⟩

theorem authenticateClient_returns
    (run : Runs (authenticateClient secret pairingExpires) trace (.ret (some handshake))) :
    Authenticated secret pairingExpires handshake trace := by
  obtain ⟨nonces, verified, tail, rfl, hverified, hnonces⟩ := returns_bind_iff.mp run
  cases nonces with
  | none => simp at hnonces
  | some nonces =>
      obtain ⟨serverNonce, clientNonce⟩ := nonces
      obtain ⟨now, tail, rfl, hnow⟩ := returns_perform_bind_iff.mp hnonces
      split at hnow
      · simp at hnow
      next hexpires =>
      obtain ⟨hserver, hclient, hproved⟩ := proveServer_returns hnow
      rw [← hserver, ← hclient] at hverified
      exact ⟨verified, tail, now, rfl, verifyClient_returns hverified, not_le.mp hexpires, hproved⟩

theorem Verified.written (h : Verified secret serverNonce clientNonce trace) :
    Control.written trace = encodeFrame ⟨SERVER_HELLO, serverNonce.val⟩ := by
  obtain ⟨hello, auth, proof, clientProof, equal, rfl, hhello, -, -, hauth, -⟩ := h
  rw [written_cons, written_append, written_append, hhello, hauth]
  exact List.append_nil _

theorem Proved.written (h : Proved secret handshake trace) :
    ∃ proof : Block 32, Control.written trace = encodeFrame ⟨SERVER_AUTH, proof.val⟩ := by
  obtain ⟨proof, reply, rfl, hreply, -⟩ := h
  rw [written_cons, written_cons, hreply]
  exact ⟨proof, rfl⟩

/-- What a completed handshake has put on the wire. -/
theorem Authenticated.written (h : Authenticated secret pairingExpires handshake trace) :
    ∃ proof : Block 32, Control.written trace =
      encodeFrame ⟨SERVER_HELLO, handshake.serverNonce.val⟩ ++
        encodeFrame ⟨SERVER_AUTH, proof.val⟩ := by
  obtain ⟨verified, proved, now, rfl, hverified, -, hproved⟩ := h
  obtain ⟨proof, hproof⟩ := hproved.written
  rw [written_append, written_cons, hverified.written, hproof]
  exact ⟨proof, rfl⟩

theorem receiveFrame_silent (timeoutMs : Int) : (receiveFrame timeoutMs).Performs Op.Silent :=
  (receiveFrame_reads timeoutMs).mono fun _ => Op.IsReading.silent

theorem constantTimeEqual_silent (left right : Bytes) :
    (constantTimeEqual left right).Performs Op.Silent := ⟨trivial, fun _ => trivial⟩

/-- What is left of `verifyClient` behind its hello writes nothing. -/
theorem verifyClient_hello {stop : Program (Option (Block 32 × Block 32))}
    (run : Runs (verifyClient secret) (⟨.randBytes, some serverNonce⟩ :: trace) stop) :
    ∃ rest : Bool → Program (Option (Block 32 × Block 32)),
      Runs (sendFrame SERVER_HELLO serverNonce.val HANDSHAKE_TIMEOUT_MS >>= rest) trace stop ∧
        ∀ sent, (rest sent).Performs Op.Silent := by
  obtain ⟨next, hcall, hnext⟩ := runs_cons_iff.mp run
  cases hcall
  refine ⟨_, hnext, fun sent => ?_⟩
  cases sent with
  | false => trivial
  | true =>
      refine (receiveFrame_silent _).bind fun answer => ?_
      cases answer with
      | none => trivial
      | some authFrame =>
          dsimp only
          split
          · trivial
          split
          · refine ⟨trivial, fun tag => ?_⟩
            cases tag with
            | none => trivial
            | some proof =>
                refine (constantTimeEqual_silent _ _).bind fun equal => ?_
                cases equal <;> trivial
          · trivial

theorem verifyClient_none (run : Runs (verifyClient secret) trace (.ret none)) :
    (Control.written trace).length ≤ 42 := by
  obtain ⟨drawn, tail, rfl, hdrawn⟩ := returns_perform_bind_iff.mp run
  cases drawn with
  | none =>
      obtain ⟨rfl, -⟩ := runs_ret_iff.mp hdrawn
      exact Nat.zero_le _
  | some nonce =>
      obtain ⟨rest, hrest, hsilent⟩ := verifyClient_hello run
      obtain ⟨sent, hello, tail, rfl, hhello, hsent⟩ := returns_bind_iff.mp hrest
      have hquiet : Control.written tail = [] :=
        written_eq_nil (hsent.performs (hsilent sent)).1
      rw [written_cons, written_append, hquiet, List.append_nil]
      change (Control.written hello).length ≤ 42
      cases sent with
      | false => exact (sendFrame_returns_false hhello).trans (by omega)
      | true =>
          rw [(sendFrame_returns hhello).2.1, encodeFrame_length, nonce.property]

theorem proveServer_none
    (run : Runs (proveServer secret serverNonce clientNonce) trace (.ret none)) :
    (Control.written trace).length ≤ 10 := by
  obtain ⟨tag, tail, rfl, htag⟩ := returns_perform_bind_iff.mp run
  rw [written_cons]
  change (Control.written tail).length ≤ 10
  cases tag with
  | none =>
      obtain ⟨rfl, -⟩ := runs_ret_iff.mp htag
      exact Nat.zero_le _
  | some proof =>
      obtain ⟨key, tail, rfl, hkey⟩ := returns_perform_bind_iff.mp htag
      rw [written_cons]
      change (Control.written tail).length ≤ 10
      cases key with
      | none =>
          obtain ⟨rfl, -⟩ := runs_ret_iff.mp hkey
          exact Nat.zero_le _
      | some sessionKey =>
          obtain ⟨sent, reply, rest, rfl, hreply, hsent⟩ := returns_bind_iff.mp hkey
          cases sent with
          | false =>
              obtain ⟨rfl, -⟩ := runs_ret_iff.mp hsent
              rw [List.append_nil]
              exact sendFrame_returns_false hreply
          | true => simp at hsent

/-- Without the flag, the second frame has not been completed. -/
theorem authenticateClient_none
    (run : Runs (authenticateClient secret pairingExpires) trace (.ret none)) :
    (Control.written trace).length ≤ 52 := by
  obtain ⟨nonces, verified, tail, rfl, hverified, hnonces⟩ := returns_bind_iff.mp run
  rw [written_append, List.length_append]
  cases nonces with
  | none =>
      obtain ⟨rfl, -⟩ := runs_ret_iff.mp hnonces
      have hshort := verifyClient_none hverified
      exact hshort.trans (by omega)
  | some nonces =>
      obtain ⟨serverNonce, clientNonce⟩ := nonces
      obtain ⟨now, tail, rfl, hnow⟩ := returns_perform_bind_iff.mp hnonces
      rw [(verifyClient_returns hverified).written, encodeFrame_length, serverNonce.property,
        written_cons]
      change 10 + 32 + (Control.written tail).length ≤ 52
      split at hnow
      · obtain ⟨rfl, -⟩ := runs_ret_iff.mp hnow
        simp [Control.written]
      · have hshort := proveServer_none hnow
        omega

end Stages

section Proofs

variable {secret serverNonce clientNonce : Block 32} {pairingExpires : Time} {bytes : Bytes}
  {timeout : Int} {deadline : Time} {trace : Trace}

theorem deadlineFor_silent (timeoutMs : Int) : (deadlineFor timeoutMs).Performs Op.Silent := by
  unfold deadlineFor
  split
  · trivial
  · exact ⟨trivial, fun _ => trivial⟩

/-- A `sendFrame` stands at its header, or at its payload, whose outcome it returns. -/
theorem sendFrame_stands {type : UInt8} {payload : Bytes} {timeoutMs : Int}
    {rest : Bool → Program Bool}
    (run : Runs (sendFrame type payload timeoutMs) trace
      (.call (.writeAll bytes timeout deadline) rest)) :
    bytes.length = 10 ∨ bytes = payload ∧ rest = .ret := by
  unfold sendFrame at run
  split at run
  · cases (runs_ret_iff.mp run).2
  obtain ⟨_, front, back, rfl, -, hback⟩ := run.stands_bind (deadlineFor_silent timeoutMs) id
  rcases runs_call_iff.mp hback with ⟨rfl, hcall⟩ | ⟨sent, tail, rfl, htail⟩
  · cases hcall
    rw [makeHeader_eq]
    exact Or.inl (encodeHeader_length _ _)
  · cases sent with
    | false => cases (runs_ret_iff.mp htail).2
    | true =>
        split at htail
        · cases (runs_ret_iff.mp htail).2
        · rcases runs_call_iff.mp htail with ⟨rfl, hcall⟩ | ⟨answer, last, rfl, hlast⟩
          · cases hcall
            exact Or.inr ⟨rfl, rfl⟩
          · cases (runs_ret_iff.mp hlast).2

theorem sendFrame_macs {type : UInt8} {payload : Bytes} {timeoutMs : Int} {stop : Program Bool}
    (run : Runs (sendFrame type payload timeoutMs) trace stop) : macs trace = [] :=
  macs_eq_nil (run.performs (sendFrame_performs type payload timeoutMs)).1

theorem receiveFrame_macs {timeoutMs : Int} {stop : Program (Option Frame)}
    (run : Runs (receiveFrame timeoutMs) trace stop) : macs trace = [] :=
  macs_eq_nil (run.performs (receiveFrame_performs timeoutMs)).1

/-- The hello is written before any tag is computed, and nothing else is written then. -/
theorem verifyClient_stands {rest : Bool → Program (Option (Block 32 × Block 32))}
    (run : Runs (verifyClient secret) trace (.call (.writeAll bytes timeout deadline) rest)) :
    macs trace = [] := by
  obtain ⟨drawn, tail, rfl, htail⟩ := (stands_perform_bind_iff (by simp)).mp run
  cases drawn with
  | none => cases (runs_ret_iff.mp htail).2
  | some nonce =>
      obtain ⟨rest, hrest, hsilent⟩ := verifyClient_hello run
      obtain ⟨first, hfirst, -⟩ := hrest.stands_left hsilent id
      have hquiet : macs tail = [] := sendFrame_macs hfirst
      exact hquiet

/-- The only tag is the one that the client's proof is compared to. -/
theorem verifyClient_macs
    (run : Runs (verifyClient secret) trace (.ret (some (serverNonce, clientNonce)))) :
    ∃ proof : Block 32,
      macs trace = [⟨secret.val, clientProofData serverNonce clientNonce, proof⟩] := by
  obtain ⟨drawn, tail, rfl, hdrawn⟩ := returns_perform_bind_iff.mp run
  cases drawn with
  | none => simp at hdrawn
  | some nonce =>
      obtain ⟨sent, hello, tail, rfl, hhello, hsent⟩ := returns_bind_iff.mp hdrawn
      cases sent with
      | false => simp at hsent
      | true =>
          obtain ⟨answer, auth, tail, rfl, hauth, hanswer⟩ := returns_bind_iff.mp hsent
          have hquiet : macs hello = [] := sendFrame_macs hhello
          cases answer with
          | none => simp at hanswer
          | some authFrame =>
              dsimp only at hanswer
              split at hanswer
              · simp at hanswer
              split at hanswer
              swap
              · simp at hanswer
              obtain ⟨tag, tail, rfl, htag⟩ := returns_perform_bind_iff.mp hanswer
              cases tag with
              | none => simp at htag
              | some proof =>
                  obtain ⟨equal, compare, rest, rfl, hcompare, hrest⟩ := returns_bind_iff.mp htag
                  cases equal with
                  | false => simp at hrest
                  | true =>
                      obtain ⟨rfl, hnonces⟩ := runs_ret_iff.mp hrest
                      cases hnonces
                      obtain ⟨equal, rfl, -⟩ := constantTimeEqual_returns hcompare
                      refine ⟨proof, ?_⟩
                      change macs (hello ++ (auth ++ _)) = _
                      rw [macs_append, hquiet, List.nil_append, macs_append,
                        receiveFrame_macs hauth, List.nil_append]
                      rfl

/-- The controller's proof is written behind two tags, and the handshake ends with it. -/
theorem proveServer_stands {rest : Bool → Program (Option Handshake)}
    (run : Runs (proveServer secret serverNonce clientNonce) trace
      (.call (.writeAll bytes timeout deadline) rest)) (hlong : 32 ≤ bytes.length) :
    ∃ proof sessionKey : Block 32, bytes = proof.val ∧
      macs trace = [⟨secret.val, serverProofData serverNonce clientNonce, proof⟩] ∧
      rest true = .ret (some ⟨serverNonce, clientNonce, sessionKey⟩) := by
  obtain ⟨tag, tail, rfl, htag⟩ := (stands_perform_bind_iff (by simp)).mp run
  cases tag with
  | none => cases (runs_ret_iff.mp htag).2
  | some proof =>
      obtain ⟨key, tail, rfl, hkey⟩ := (stands_perform_bind_iff (by simp)).mp htag
      cases key with
      | none => cases (runs_ret_iff.mp hkey).2
      | some sessionKey =>
          obtain ⟨first, hfirst, rfl⟩ := hkey.stands_left
            (fun sent => by cases sent <;> trivial) (show ¬ Op.Silent _ from id)
          rcases sendFrame_stands hfirst with hshort | ⟨rfl, rfl⟩
          · omega
          · have hquiet : macs tail = [] := sendFrame_macs hfirst
            exact ⟨proof, sessionKey, rfl, congrArg (_ :: ·) hquiet, rfl⟩

/-- Where the controller stands at a transfer longer than a header, it has computed no tag
yet, or the two of the handshake, of which it sends the second as its last act. -/
theorem authenticateClient_stands {rest : Bool → Program (Option Handshake)}
    (run : Runs (authenticateClient secret pairingExpires) trace
      (.call (.writeAll bytes timeout deadline) rest)) (hlong : 32 ≤ bytes.length) :
    macs trace = [] ∨
      ∃ serverNonce clientNonce clientProof serverProof sessionKey : Block 32,
        bytes = serverProof.val ∧
        macs trace = [⟨secret.val, clientProofData serverNonce clientNonce, clientProof⟩,
          ⟨secret.val, serverProofData serverNonce clientNonce, serverProof⟩] ∧
        rest true = .ret (some ⟨serverNonce, clientNonce, sessionKey⟩) := by
  rcases runs_bind_iff.mp run with ⟨middle, hmiddle, hvalue, hstop⟩ |
    ⟨nonces, front, back, rfl, hfront, hback⟩
  · cases middle with
    | ret value => exact absurd rfl (hvalue value)
    | throw error => cases hstop
    | unfinished => cases hstop
    | call op next =>
        cases hstop
        exact Or.inl (verifyClient_stands hmiddle)
  · cases nonces with
    | none => cases (runs_ret_iff.mp hback).2
    | some nonces =>
        obtain ⟨serverNonce, clientNonce⟩ := nonces
        obtain ⟨clientProof, hfirst⟩ := verifyClient_macs hfront
        obtain ⟨now, tail, rfl, htail⟩ := (stands_perform_bind_iff (by simp)).mp hback
        split at htail
        · cases (runs_ret_iff.mp htail).2
        obtain ⟨proof, sessionKey, hbytes, hsecond, hrest⟩ := proveServer_stands htail hlong
        refine Or.inr ⟨serverNonce, clientNonce, clientProof, proof, sessionKey, hbytes, ?_, hrest⟩
        rw [macs_append, hfirst]
        exact congrArg (_ :: ·) hsecond

end Proofs

end OpenCam.Linux
