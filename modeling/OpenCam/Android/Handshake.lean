import OpenCam.Android.ControlProtocol

/-!
`authenticate` of `ControlProtocol.kt`, and what it has done where it sends its proof and
where it returns.
-/

namespace OpenCam.Android

open Octets Interaction Control

section Authenticate

/-- What an authenticated phone has agreed on. -/
structure Handshake where
  serverNonce : Bytes
  clientNonce : Block 32
  sessionKey : Bytes
deriving DecidableEq

/-- The steps from the controller's proof on. -/
def verifyServer (token serverNonce : Bytes) (clientNonce : Block 32) : Program Handshake := do
  let response ← readFrame 5000
  if response.type ≠ TYPE_SERVER_AUTH ∨ response.payload.length ≠ 32 then
    .throw "Pairing rejected"
  else do
    let expected ← proof token SERVER_PROOF_DOMAIN serverNonce clientNonce.val
    let equal ← ask (.constantTimeEqual expected response.payload)
    if !equal.val then .throw "Server identity verification failed"
    else do
      let sessionKey ← deriveSessionKey token serverNonce clientNonce.val
      .ret ⟨serverNonce, clientNonce, sessionKey⟩

/-- The steps from the phone's nonce to its proof. -/
def proveClient (token serverNonce : Bytes) : Program (Block 32) := do
  let clientNonce ← ask .secureRandom
  let clientProof ← proof token CLIENT_PROOF_DOMAIN serverNonce clientNonce.val
  writeFrame TYPE_CLIENT_AUTH (clientNonce.val ++ clientProof)
  .ret clientNonce

/-- The first frame. -/
def receiveHello : Program Bytes := do
  let hello ← readFrame 5000
  if hello.type ≠ TYPE_SERVER_HELLO ∨ hello.payload.length ≠ 32 then
    .throw "Invalid server handshake"
  else .ret hello.payload

def agree (token : Bytes) : Program Handshake := do
  require (token.length = KEY_SIZE) "Invalid pairing token"
  let serverNonce ← receiveHello
  let clientNonce ← proveClient token serverNonce
  verifyServer token serverNonce clientNonce

/-- `authenticate`, with what it has agreed on beside the channel. -/
def authenticateAgreeing (token : Bytes) : Program (Handshake × AuthenticatedChannel) := do
  let agreed ← agree token
  let channel ← AuthenticatedChannel.ofSessionKey agreed.sessionKey false
  .ret (agreed, channel)

def authenticate (token : Bytes) : Program AuthenticatedChannel := do
  let result ← authenticateAgreeing token
  .ret result.2

end Authenticate

section Framing

variable {bytes : Bytes} {timeout : Int} {deadline : Time} {trace : Trace}

theorem readExact_reads (size : Nat) (timeoutMs : Int) (deadline : Time) :
    (readExact size timeoutMs deadline).Performs Op.IsReading := by
  unfold readExact
  split
  · trivial
  · refine ⟨trivial, fun answer => ?_⟩
    cases answer <;> trivial

theorem readFrame_reads (timeoutMs : Int) : (readFrame timeoutMs).Performs Op.IsReading := by
  unfold readFrame readDeadline
  refine Prog.Performs.bind ?_ fun deadline => (readExact_reads _ _ _).bind fun header => ?_
  · split
    · trivial
    · exact ⟨trivial, fun _ => trivial⟩
  · split
    · trivial
    · generalize getInt (header.drop 6) = length
      dsimp only
      split
      · trivial
      · exact (readExact_reads _ _ _).bind fun payload => True.intro

theorem readFrame_silent (timeoutMs : Int) : (readFrame timeoutMs).Performs Op.Silent :=
  (readFrame_reads timeoutMs).mono fun _ => Op.IsReading.silent

theorem outputWrite_stands {payload : Bytes} {rest : Bool → Program Unit}
    (run : Runs (outputWrite payload) trace (.call (.writeAll bytes timeout deadline) rest)) :
    trace = [] ∧ bytes = payload := by
  rcases runs_call_iff.mp run with ⟨rfl, hcall⟩ | ⟨answer, tail, rfl, htail⟩
  · cases hcall
    exact ⟨rfl, rfl⟩
  · cases answer with
    | false => cases (runs_throw_iff.mp htail).2
    | true => cases (runs_ret_iff.mp htail).2

theorem require_silent (condition : Bool) (message : String) :
    (require condition message).Performs Op.Silent := by
  unfold require
  split <;> trivial

/-- A `writeFrame` stands at its header, or at its payload behind the header. -/
theorem writeFrame_stands {type : Int} {payload : Bytes} {rest : Bool → Program Unit}
    (run : Runs (writeFrame type payload) trace (.call (.writeAll bytes timeout deadline) rest)) :
    bytes.length = 10 ∨
      bytes = payload ∧ written trace = encodeHeader (toByte type) payload.length ∧
        received trace = [] := by
  obtain ⟨_, front, back, rfl, hrequire, hback⟩ :=
    run.stands_bind (require_silent _ _) id
  obtain ⟨-, rfl⟩ := require_returns hrequire
  rcases runs_bind_iff.mp hback with ⟨middle, hmiddle, hvalue, hstop⟩ |
    ⟨_, header, tail, rfl, hheader, htail⟩
  · cases middle with
    | ret value => exact absurd rfl (hvalue value)
    | throw error => cases hstop
    | unfinished => cases hstop
    | call op next =>
        cases hstop
        obtain ⟨-, rfl⟩ := outputWrite_stands hmiddle
        rw [makeHeader_eq]
        exact Or.inl (encodeHeader_length _ _)
  · obtain ⟨rfl, rfl⟩ := outputWrite_stands htail
    rw [outputWrite_returns hheader, makeHeader_eq]
    refine Or.inr ⟨rfl, ?_, rfl⟩
    simp [written, Action.written]

theorem writeFrame_macs {type : Int} {payload : Bytes} {stop : Program Unit}
    (run : Runs (writeFrame type payload) trace stop) : macs trace = [] :=
  macs_eq_nil (run.performs (writeFrame_performs type payload)).1

theorem readFrame_macs {timeoutMs : Int} {stop : Program Frame}
    (run : Runs (readFrame timeoutMs) trace stop) : macs trace = [] :=
  macs_eq_nil fun event hmem =>
    ((run.performs (readFrame_reads timeoutMs)).1 event hmem).transfer

end Framing

section Derivation

variable {trace : Trace}

theorem mac_silent (key data : Bytes) : (mac key data).Performs Op.Silent :=
  ⟨trivial, fun answer => by cases answer <;> trivial⟩

theorem hkdfExpandLoop_silent (prk info : Bytes) (outputLength passes : Nat)
    (previous output : Bytes) (counter : Nat) :
    (hkdfExpandLoop prk info outputLength passes previous output counter).Performs Op.Silent := by
  induction passes generalizing previous output counter with
  | zero =>
      unfold hkdfExpandLoop
      split <;> trivial
  | succ passes ih =>
      unfold hkdfExpandLoop
      split
      · exact (mac_silent _ _).bind fun block => ih _ _ _
      · trivial

theorem hkdfExpand_silent (prk info : Bytes) (outputLength : Int) :
    (hkdfExpand prk info outputLength).Performs Op.Silent :=
  (require_silent _ _).bind fun _ => (require_silent _ _).bind fun _ =>
    hkdfExpandLoop_silent _ _ _ _ _ _ _

theorem deriveSessionKey_silent (secret serverNonce clientNonce : Bytes) :
    (deriveSessionKey secret serverNonce clientNonce).Performs Op.Silent :=
  (require_silent _ _).bind fun _ => (require_silent _ _).bind fun _ =>
    (require_silent _ _).bind fun _ => (mac_silent _ _).bind fun _ => hkdfExpand_silent _ _ _

theorem ofSessionKey_silent (sessionKey : Bytes) (serverSide : Bool) :
    (AuthenticatedChannel.ofSessionKey sessionKey serverSide).Performs Op.Silent :=
  (require_silent _ _).bind fun _ => (hkdfExpand_silent _ _ _).bind fun _ =>
    (hkdfExpand_silent _ _ _).bind fun _ => trivial

theorem mac_returns {key data value : Bytes} (run : Runs (mac key data) trace (.ret value)) :
    ∃ tag : Block 32, trace = [⟨.hmac key data, some tag⟩] ∧ value = tag.val := by
  obtain ⟨answer, tail, rfl, htail⟩ := returns_perform_bind_iff.mp run
  cases answer with
  | none => simp at htail
  | some tag =>
      obtain ⟨rfl, hvalue⟩ := runs_ret_iff.mp htail
      cases hvalue
      exact ⟨tag, rfl, rfl⟩

/-- Every event is a tag that was computed. -/
def AllMacs (trace : Trace) : Prop :=
  ∀ event ∈ trace, ∃ mac : Mac, event = ⟨.hmac mac.key mac.data, some mac.tag⟩

theorem mac_allMacs {key data value : Bytes} (run : Runs (mac key data) trace (.ret value)) :
    AllMacs trace := by
  obtain ⟨tag, rfl, -⟩ := mac_returns run
  intro event hmem
  obtain rfl := List.mem_singleton.mp hmem
  exact ⟨⟨key, data, tag⟩, rfl⟩

/-- By induction on the passes. -/
theorem hkdfExpandLoop_allMacs {prk info previous output value : Bytes}
    {outputLength passes counter : Nat}
    (run : Runs (hkdfExpandLoop prk info outputLength passes previous output counter) trace
      (.ret value)) : AllMacs trace := by
  induction passes generalizing previous output counter trace with
  | zero =>
      unfold hkdfExpandLoop at run
      split at run
      · simp at run
      · obtain ⟨rfl, -⟩ := runs_ret_iff.mp run
        exact fun event hmem => nomatch hmem
  | succ passes ih =>
      unfold hkdfExpandLoop at run
      split at run
      · obtain ⟨block, front, back, rfl, hfront, hback⟩ := returns_bind_iff.mp run
        exact List.forall_mem_append.mpr ⟨mac_allMacs hfront, ih hback⟩
      · obtain ⟨rfl, -⟩ := runs_ret_iff.mp run
        exact fun event hmem => nomatch hmem

theorem deriveSessionKey_allMacs {secret serverNonce clientNonce value : Bytes}
    (run : Runs (deriveSessionKey secret serverNonce clientNonce) trace (.ret value)) :
    AllMacs trace := by
  obtain ⟨_, _, rest, rfl, hsecret, hrest⟩ := returns_bind_iff.mp run
  obtain ⟨_, _, rest, rfl, hserver, hrest⟩ := returns_bind_iff.mp hrest
  obtain ⟨_, _, rest, rfl, hclient, hrest⟩ := returns_bind_iff.mp hrest
  obtain ⟨prk, extraction, rest, rfl, hextraction, hrest⟩ := returns_bind_iff.mp hrest
  obtain ⟨_, _, rest, rfl, hlow, hrest⟩ := returns_bind_iff.mp hrest
  obtain ⟨_, _, expansion, rfl, hhigh, hexpansion⟩ := returns_bind_iff.mp hrest
  obtain ⟨-, rfl⟩ := require_returns hsecret
  obtain ⟨-, rfl⟩ := require_returns hserver
  obtain ⟨-, rfl⟩ := require_returns hclient
  obtain ⟨-, rfl⟩ := require_returns hlow
  obtain ⟨-, rfl⟩ := require_returns hhigh
  have hextracted : AllMacs extraction := mac_allMacs hextraction
  have hexpanded : AllMacs expansion := hkdfExpandLoop_allMacs hexpansion
  simp only [List.nil_append]
  exact List.forall_mem_append.mpr ⟨hextracted, hexpanded⟩

end Derivation

section Stages

variable {token serverNonce : Bytes} {clientNonce : Block 32} {trace : Trace}

/-- The bytes under the phone's proof. -/
def clientProofData (serverNonce clientNonce : Bytes) : Bytes :=
  CLIENT_PROOF_DOMAIN ++ serverNonce ++ clientNonce

/-- The bytes under the controller's proof. -/
def serverProofData (serverNonce clientNonce : Bytes) : Bytes :=
  SERVER_PROOF_DOMAIN ++ serverNonce ++ clientNonce

/-- The controller's nonce arrived, the phone's was drawn, and the proof for both was sent
with it. No other tag was computed. -/
def Sent (token serverNonce : Bytes) (clientNonce : Block 32) (trace : Trace) : Prop :=
  ∃ (hello reply : Trace) (proof : Block 32),
    trace = hello ++ ⟨.secureRandom, clientNonce⟩ ::
      ⟨.hmac token (clientProofData serverNonce clientNonce.val), some proof⟩ :: reply ∧
    received hello = encodeFrame ⟨toByte TYPE_SERVER_HELLO, serverNonce⟩ ∧ written hello = [] ∧
    written reply = encodeFrame ⟨toByte TYPE_CLIENT_AUTH, clientNonce.val ++ proof.val⟩ ∧
    received reply = [] ∧ macs hello = [] ∧ macs reply = []

/-- A frame with the controller's proof arrived, and the session key was derived. -/
def Accepted (token : Bytes) (agreed : Handshake) (trace : Trace) : Prop :=
  ∃ (response derivation : Trace) (proof : Block 32) (serverProof : Bytes)
    (equal : {equal : Bool // equal = true ↔ proof.val = serverProof}),
    trace = response ++
      (⟨.hmac token (serverProofData agreed.serverNonce agreed.clientNonce.val), some proof⟩ ::
        ⟨.constantTimeEqual proof.val serverProof, equal⟩ :: derivation) ∧
    received response = encodeFrame ⟨toByte TYPE_SERVER_AUTH, serverProof⟩ ∧
    written response = [] ∧ equal.val = true ∧
    Runs (deriveSessionKey token agreed.serverNonce agreed.clientNonce.val) derivation
      (.ret agreed.sessionKey)

theorem receiveHello_silent : receiveHello.Performs Op.Silent := by
  refine (readFrame_silent _).bind fun hello => ?_
  split <;> trivial

theorem verifyServer_silent (token serverNonce : Bytes) (clientNonce : Block 32) :
    (verifyServer token serverNonce clientNonce).Performs Op.Silent := by
  refine (readFrame_silent _).bind fun response => ?_
  split
  · trivial
  refine (mac_silent _ _).bind fun expected => Prog.performs_perform_bind trivial fun equal => ?_
  split
  · trivial
  · exact (deriveSessionKey_silent _ _ _).bind fun sessionKey => trivial

theorem receiveHello_returns (run : Runs receiveHello trace (.ret serverNonce)) :
    received trace = encodeFrame ⟨toByte TYPE_SERVER_HELLO, serverNonce⟩ ∧ written trace = [] ∧
      macs trace = [] ∧ serverNonce.length = 32 := by
  obtain ⟨hello, arrival, rest, rfl, harrival, hrest⟩ := returns_bind_iff.mp run
  obtain ⟨byte, htype, -, hreceived, hwritten⟩ := readFrame_returns harrival
  have hmacs := readFrame_macs harrival
  split at hrest
  · simp at hrest
  next hchecks =>
  rw [not_or, not_not, not_not] at hchecks
  obtain ⟨rfl, hnonce⟩ := runs_ret_iff.mp hrest
  cases hnonce
  have hbyte : toByte TYPE_SERVER_HELLO = byte := by rw [← hchecks.1, htype, toByte_natCast]
  rw [List.append_nil, hbyte]
  exact ⟨hreceived, hwritten, hmacs, hchecks.2⟩

/-- The phone writes its proof where it stands at a transfer longer than a header. -/
theorem proveClient_stands {bytes : Bytes} {timeout : Int} {deadline : Time}
    {rest : Bool → Program (Block 32)}
    (run : Runs (proveClient token serverNonce) trace
      (.call (.writeAll bytes timeout deadline) rest)) (hlong : 32 ≤ bytes.length) :
    ∃ (clientNonce proof : Block 32) (header : Trace),
      trace = ⟨.secureRandom, clientNonce⟩ ::
        ⟨.hmac token (clientProofData serverNonce clientNonce.val), some proof⟩ :: header ∧
      bytes = clientNonce.val ++ proof.val ∧
      written header = encodeHeader (toByte TYPE_CLIENT_AUTH) 64 ∧ received header = [] ∧
      macs header = [] := by
  obtain ⟨clientNonce, tail, rfl, htail⟩ := (stands_perform_bind_iff (by simp)).mp run
  obtain ⟨_, front, header, rfl, hproof, hheader⟩ := htail.stands_bind (mac_silent _ _) id
  obtain ⟨proof, rfl, rfl⟩ := mac_returns hproof
  obtain ⟨first, hfirst, rfl⟩ := hheader.stands_left
    (fun _ => trivial) (show ¬ Op.Silent _ from id)
  have hmacs := writeFrame_macs hfirst
  rcases writeFrame_stands hfirst with hshort | ⟨rfl, hwritten, hreceived⟩
  · omega
  · have hsize : (clientNonce.val ++ proof.val).length = 64 := by
      rw [List.length_append, clientNonce.property, proof.property]
    rw [hsize] at hwritten
    exact ⟨clientNonce, proof, header, rfl, rfl, hwritten, hreceived, hmacs⟩

theorem proveClient_returns
    (run : Runs (proveClient token serverNonce) trace (.ret clientNonce)) :
    ∃ (proof : Block 32) (reply : Trace),
      trace = ⟨.secureRandom, clientNonce⟩ ::
        ⟨.hmac token (clientProofData serverNonce clientNonce.val), some proof⟩ :: reply ∧
      written reply = encodeFrame ⟨toByte TYPE_CLIENT_AUTH, clientNonce.val ++ proof.val⟩ ∧
      received reply = [] ∧ macs reply = [] := by
  obtain ⟨drawn, tail, rfl, htail⟩ := returns_perform_bind_iff.mp run
  obtain ⟨_, front, back, rfl, hproof, hback⟩ := returns_bind_iff.mp htail
  obtain ⟨proof, rfl, rfl⟩ := mac_returns hproof
  obtain ⟨_, reply, rest, rfl, hreply, hrest⟩ := returns_bind_iff.mp hback
  obtain ⟨rfl, hnonce⟩ := runs_ret_iff.mp hrest
  cases hnonce
  obtain ⟨-, hwritten, hreceived⟩ := writeFrame_returns hreply
  rw [List.append_nil]
  exact ⟨proof, reply, rfl, hwritten, hreceived, writeFrame_macs hreply⟩

/-- Where the phone stands at a transfer longer than a header, it sends its proof. -/
theorem authenticateAgreeing_stands {bytes : Bytes} {timeout : Int} {deadline : Time}
    {rest : Bool → Program (Handshake × AuthenticatedChannel)}
    (run : Runs (authenticateAgreeing token) trace
      (.call (.writeAll bytes timeout deadline) rest)) (hlong : 32 ≤ bytes.length) :
    ∃ (serverNonce : Bytes) (clientNonce proof : Block 32),
      bytes = clientNonce.val ++ proof.val ∧ serverNonce.length = 32 ∧
      macs trace = [⟨token, clientProofData serverNonce clientNonce.val, proof⟩] ∧
      Sent token serverNonce clientNonce (trace ++ [⟨.writeAll bytes timeout deadline, true⟩]) := by
  obtain ⟨inner, hinner, rfl⟩ := run.stands_left
    (fun agreed => (ofSessionKey_silent _ _).bind fun channel => trivial)
    (show ¬ Op.Silent _ from id)
  obtain ⟨_, front, back, rfl, hrequire, hback⟩ := hinner.stands_bind (require_silent _ _) id
  obtain ⟨-, rfl⟩ := require_returns hrequire
  obtain ⟨serverNonce, hello, proving, rfl, hhello, hproving⟩ :=
    hback.stands_bind receiveHello_silent id
  obtain ⟨hreceived, hwritten, hmacs, hlength⟩ := receiveHello_returns hhello
  obtain ⟨first, hfirst, rfl⟩ := hproving.stands_left
    (fun clientNonce => verifyServer_silent _ _ _) id
  obtain ⟨clientNonce, proof, header, rfl, rfl, hheader, hquiet, hheaderMacs⟩ :=
    proveClient_stands hfirst hlong
  have hsize : (clientNonce.val ++ proof.val).length = 64 := by
    rw [List.length_append, clientNonce.property, proof.property]
  refine ⟨serverNonce, clientNonce, proof, rfl, hlength, ?_, hello,
    header ++ [⟨.writeAll (clientNonce.val ++ proof.val) timeout deadline, true⟩], proof,
    by simp, hreceived, hwritten, ?_, ?_, hmacs, ?_⟩
  · rw [List.nil_append, macs_append, hmacs, List.nil_append]
    exact congrArg (_ :: ·) hheaderMacs
  · rw [written_append, hheader, encodeFrame, hsize]
    simp [written, Action.written]
  · rw [received_append, hquiet]
    rfl
  · rw [macs_append, hheaderMacs]
    rfl

theorem verifyServer_returns {agreed : Handshake}
    (run : Runs (verifyServer token serverNonce clientNonce) trace (.ret agreed)) :
    agreed.serverNonce = serverNonce ∧ agreed.clientNonce = clientNonce ∧
      Accepted token agreed trace := by
  obtain ⟨frame, response, rest, rfl, hresponse, hrest⟩ := returns_bind_iff.mp run
  obtain ⟨byte, htype, -, hreceived, hwritten⟩ := readFrame_returns hresponse
  split at hrest
  · simp at hrest
  next hchecks =>
  rw [not_or, not_not, not_not] at hchecks
  obtain ⟨_, front, back, rfl, hproof, hback⟩ := returns_bind_iff.mp hrest
  obtain ⟨proof, rfl, rfl⟩ := mac_returns hproof
  obtain ⟨equal, tail, rfl, htail⟩ := returns_perform_bind_iff.mp hback
  split at htail
  · simp at htail
  next hequal =>
  obtain ⟨sessionKey, derivation, last, rfl, hderivation, hlast⟩ := returns_bind_iff.mp htail
  obtain ⟨rfl, hagreed⟩ := runs_ret_iff.mp hlast
  cases hagreed
  have hbyte : toByte TYPE_SERVER_AUTH = byte := by rw [← hchecks.1, htype, toByte_natCast]
  refine ⟨rfl, rfl, response, derivation, proof, frame.payload, equal, ?_, ?_, hwritten, ?_,
    hderivation⟩
  · rw [List.append_nil]
    rfl
  · rw [hreceived, hbyte]
  · simpa using hequal

/-- A phone that returns has sent its proof and accepted the controller's. -/
theorem authenticateAgreeing_returns {agreed : Handshake} {channel : AuthenticatedChannel}
    (run : Runs (authenticateAgreeing token) trace (.ret (agreed, channel))) :
    ∃ sent accepted derivation, trace = sent ++ (accepted ++ derivation) ∧
      Sent token agreed.serverNonce agreed.clientNonce sent ∧ Accepted token agreed accepted ∧
      token.length = 32 ∧ agreed.serverNonce.length = 32 := by
  obtain ⟨_, agreement, rest, rfl, hagree, hrest⟩ := returns_bind_iff.mp run
  obtain ⟨_, derivation, last, rfl, -, hlast⟩ := returns_bind_iff.mp hrest
  obtain ⟨rfl, hresult⟩ := runs_ret_iff.mp hlast
  cases hresult
  obtain ⟨_, front, back, rfl, hrequire, hback⟩ := returns_bind_iff.mp hagree
  obtain ⟨htoken, rfl⟩ := require_returns hrequire
  obtain ⟨serverNonce, hello, proving, rfl, hhello, hproving⟩ := returns_bind_iff.mp hback
  obtain ⟨hreceived, hwritten, hmacs, hlength⟩ := receiveHello_returns hhello
  obtain ⟨clientNonce, proved, accepted, rfl, hproved, haccepted⟩ := returns_bind_iff.mp hproving
  obtain ⟨rfl, rfl, hverified⟩ := verifyServer_returns haccepted
  obtain ⟨proof, reply, rfl, hreply, hquiet, hreplyMacs⟩ := proveClient_returns hproved
  exact ⟨hello ++ _, accepted, derivation, by simp,
    ⟨hello, reply, proof, rfl, hreceived, hwritten, hreply, hquiet, hmacs, hreplyMacs⟩,
    hverified, of_decide_eq_true htoken, hlength⟩

theorem Sent.macs_eq (h : Sent token serverNonce clientNonce trace) :
    ∃ proof : Block 32,
      macs trace = [⟨token, clientProofData serverNonce clientNonce.val, proof⟩] := by
  obtain ⟨hello, reply, proof, rfl, -, -, -, -, hhello, hreply⟩ := h
  refine ⟨proof, ?_⟩
  rw [macs_append, hhello]
  exact congrArg (_ :: ·) hreply

end Stages

end OpenCam.Android
