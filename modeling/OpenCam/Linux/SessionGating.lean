import OpenCam.Linux.ClientHandshake

/-!
The order of `handleClient`: what must have happened on a connection before its media
pipeline starts, when the loop behind it goes on, and how it ends.
-/

namespace OpenCam.Linux

open Octets Interaction Control

section Operations

/-- A call of the media pipeline. -/
def Op.Media : Op → Prop
  | .pipelineStart _ _ | .pipelineState | .pipelineErrorMessage | .pipelineStop => True
  | _ => False

theorem Op.IsTransfer.not_media {op : Op} (h : op.IsTransfer) : ¬ Op.Media op := by
  cases op <;> first | exact id | exact h.elim

variable {channel : AuthenticatedChannel} {timeoutMs : Int}

abbrev Outside {α : Type} (program : Program α) : Prop := program.Performs fun op => ¬ Op.Media op

theorem outside_sendFrame (type : UInt8) (payload : Bytes) (timeoutMs : Int) :
    Outside (sendFrame type payload timeoutMs) :=
  (sendFrame_performs type payload timeoutMs).mono fun _ => Op.IsTransfer.not_media

theorem outside_receiveFrame (timeoutMs : Int) : Outside (receiveFrame timeoutMs) :=
  (receiveFrame_performs timeoutMs).mono fun _ => Op.IsTransfer.not_media

theorem outside_constantTimeEqual (left right : Bytes) : Outside (constantTimeEqual left right) :=
  ⟨id, fun _ => trivial⟩

theorem outside_verifyClient (secret : Block 32) : Outside (verifyClient secret) := by
  refine ⟨id, fun drawn => ?_⟩
  cases drawn with
  | none => trivial
  | some serverNonce =>
      refine (outside_sendFrame _ _ _).bind fun sent => ?_
      cases sent with
      | false => trivial
      | true =>
          refine (outside_receiveFrame _).bind fun answer => ?_
          cases answer with
          | none => trivial
          | some authFrame =>
              dsimp only
              split
              · trivial
              split
              · refine ⟨id, fun tag => ?_⟩
                cases tag with
                | none => trivial
                | some proof =>
                    refine (outside_constantTimeEqual _ _).bind fun equal => ?_
                    cases equal <;> trivial
              · trivial

theorem outside_proveServer (secret serverNonce clientNonce : Block 32) :
    Outside (proveServer secret serverNonce clientNonce) := by
  refine ⟨id, fun tag => ?_⟩
  cases tag with
  | none => trivial
  | some proof =>
      refine ⟨id, fun key => ?_⟩
      cases key with
      | none => trivial
      | some sessionKey =>
          refine (outside_sendFrame _ _ _).bind fun sent => ?_
          cases sent <;> trivial

theorem outside_authenticateClient (secret : Block 32) (pairingExpires : Time) :
    Outside (authenticateClient secret pairingExpires) := by
  refine (outside_verifyClient secret).bind fun nonces => ?_
  cases nonces with
  | none => trivial
  | some nonces =>
      refine ⟨id, fun now => ?_⟩
      change Outside (if _ then _ else _)
      split
      · trivial
      · exact outside_proveServer _ _ _

theorem outside_ofSessionKey (sessionKey : Block 32) (serverSide : Bool) :
    Outside (AuthenticatedChannel.ofSessionKey sessionKey serverSide) := by
  refine ⟨id, fun sendKey => ?_⟩
  cases sendKey with
  | none => trivial
  | some sendKey =>
      refine ⟨id, fun receiveKey => ?_⟩
      cases receiveKey <;> trivial

theorem outside_openFrame (channel : AuthenticatedChannel) (wire : Frame) :
    Outside (channel.openFrame wire) := by
  unfold AuthenticatedChannel.openFrame
  dsimp only
  split
  · trivial
  split
  · trivial
  · refine ⟨id, fun plaintext => ?_⟩
    cases plaintext <;> trivial

theorem outside_receive (channel : AuthenticatedChannel) (timeoutMs : Int) :
    Outside (channel.receive timeoutMs) := by
  unfold AuthenticatedChannel.receive
  split
  · trivial
  · refine (outside_receiveFrame timeoutMs).bind fun answer => ?_
    cases answer with
    | none => trivial
    | some wire => exact outside_openFrame channel wire

theorem outside_send (channel : AuthenticatedChannel) (type : UInt8) (payload : Bytes)
    (timeoutMs : Int) : Outside (channel.send type payload timeoutMs) := by
  unfold AuthenticatedChannel.send
  split
  · trivial
  split
  · trivial
  · refine ⟨id, fun encrypted => ?_⟩
    cases encrypted with
    | none => trivial
    | some encrypted =>
        refine (outside_sendFrame _ _ _).bind fun sent => ?_
        cases sent <;> trivial

theorem outside_acceptDescriptor (inetPton : Bytes → Bool) (clientIp : Bytes)
    (channel : AuthenticatedChannel) : Outside (acceptDescriptor inetPton clientIp channel) := by
  refine (outside_receive channel _).bind fun received => ?_
  obtain ⟨frame, channel⟩ := received
  cases frame with
  | none => trivial
  | some frame =>
      dsimp only
      split
      · trivial
      split
      · trivial
      · split <;> trivial

theorem outside_activateMedia (sessionKey : Block 32) (descriptor : DeviceDescriptor)
    (channel : AuthenticatedChannel) : Outside (activateMedia sessionKey descriptor channel) := by
  have hpassword : Outside (deriveMediaPassword sessionKey) := by
    refine ⟨id, fun credential => ?_⟩
    cases credential <;> trivial
  refine hpassword.bind fun mediaPassword => ?_
  split
  · trivial
  refine ⟨id, fun virtualCamera => ?_⟩
  change Outside (if _ then _ else _)
  split
  · trivial
  refine (outside_send channel _ _ _).bind fun sent => ?_
  obtain ⟨complete, channel⟩ := sent
  cases complete with
  | false => trivial
  | true =>
      refine ⟨id, fun ready => ?_⟩
      cases ready <;> trivial

end Operations

section Stages

variable {inetPton : Bytes → Bool} {clientIp : Bytes} {secret sessionKey : Block 32}
  {pairingExpires : Time} {channel channel' : AuthenticatedChannel}
  {descriptor : DeviceDescriptor} {source : MediaSource} {timeoutMs : Int} {trace : Trace}

/-- The channel behind an accepted frame. -/
def AuthenticatedChannel.received (channel : AuthenticatedChannel) : AuthenticatedChannel :=
  { channel with receiveSequence := channel.receiveSequence + 1 }

/-- The channel behind a frame that was sent. -/
def AuthenticatedChannel.sent (channel : AuthenticatedChannel) : AuthenticatedChannel :=
  { channel with sendSequence := channel.sendSequence + 1 }

/-- A frame was read and authenticated: it decrypts under the receiving key, the next nonce and
its own header. -/
def Accepted (channel : AuthenticatedChannel) (frame : Frame) (trace : Trace) : Prop :=
  ∃ (arrival : Trace) (ciphertext tag : Bytes),
    trace = arrival ++ [⟨.gcmDecrypt channel.receiveKey.val
      (gcmNonce (!channel.serverSide) channel.receiveSequence.toNat)
      (encodeHeader frame.type (ciphertext.length + 24)) ciphertext tag, some frame.payload⟩] ∧
    Control.received arrival = encodeFrame
      ⟨frame.type, sealedPayload channel.receiveSequence.toNat (ciphertext ++ tag)⟩ ∧
    written arrival = []

theorem receive_accepted {frame : Frame}
    (run : Runs (channel.receive timeoutMs) trace (.ret (some frame, channel'))) :
    Accepted channel frame trace ∧ channel' = channel.received := by
  obtain ⟨-, hchannel, ciphertext, tag, arrival, -, hreceived, hwritten, rfl⟩ :=
    AuthenticatedChannel.receive_returns run
  exact ⟨⟨arrival, ciphertext, tag, rfl, hreceived, hwritten⟩, hchannel⟩

/-- The first frame was a descriptor that parses, with an endpoint at the client's address. -/
def Described (inetPton : Bytes → Bool) (clientIp : Bytes) (channel : AuthenticatedChannel)
    (descriptor : DeviceDescriptor) (trace : Trace) : Prop :=
  ∃ payload, Accepted channel ⟨DESCRIPTOR, payload⟩ trace ∧
    parseDeviceDescriptor payload = .ok descriptor ∧
    isAllowedRtspEndpoint inetPton descriptor.rtspUrl clientIp = true

theorem acceptDescriptor_returns
    (run : Runs (acceptDescriptor inetPton clientIp channel) trace
      (.ret (some (descriptor, channel')))) :
    Described inetPton clientIp channel descriptor trace ∧ channel' = channel.received := by
  obtain ⟨⟨answer, after⟩, arrival, rest, rfl, harrival, hrest⟩ := returns_bind_iff.mp run
  cases answer with
  | none => simp at hrest
  | some frame =>
      obtain ⟨haccepted, hafter⟩ := receive_accepted harrival
      obtain ⟨type, payload⟩ := frame
      dsimp only at hrest
      split at hrest
      · simp at hrest
      next htype =>
      split at hrest
      · simp at hrest
      next parsed hparsed =>
      split at hrest
      · next hallowed =>
          obtain ⟨rfl, hresult⟩ := runs_ret_iff.mp hrest
          cases hresult
          obtain rfl : type = DESCRIPTOR := not_not.mp htype
          rw [List.append_nil]
          exact ⟨⟨payload, haccepted, hparsed, hallowed⟩, hafter⟩
      · simp at hrest

/-- One activation was sealed and sent, and the source answered the probe. -/
def Activated (sessionKey : Block 32) (descriptor : DeviceDescriptor)
    (channel : AuthenticatedChannel) (source : MediaSource) (trace : Trace) : Prop :=
  ∃ (credential : Block 32) (encrypted : Block ((buildActivationPacket {}).length + 16))
    (sent : Trace),
    trace = ⟨.hmac sessionKey.val MEDIA_CREDENTIAL_DOMAIN, some credential⟩ ::
      ⟨.findOpenCamDevice, source.virtualCamera⟩ ::
      ⟨.gcmEncrypt channel.sendKey.val (gcmNonce channel.serverSide channel.sendSequence.toNat)
        (encodeHeader ACTIVATION ((buildActivationPacket {}).length + 24))
        (buildActivationPacket {}), some encrypted⟩ ::
      (sent ++ [⟨.waitForRtsp source.authenticatedRtspUrl, true⟩]) ∧
    source.authenticatedRtspUrl =
      authenticatedRtspUrl (encodeHex credential.val) descriptor.rtspUrl ∧
    source.virtualCamera ≠ [] ∧
    written sent =
      encodeFrame ⟨ACTIVATION, sealedPayload channel.sendSequence.toNat encrypted.val⟩ ∧
    Control.received sent = [] ∧ encryptions sent = []

theorem Described.written (h : Described inetPton clientIp channel descriptor trace) :
    Control.written trace = [] := by
  obtain ⟨payload, ⟨arrival, ciphertext, tag, rfl, -, harrival⟩, -⟩ := h
  rw [written_append, harrival]
  rfl

theorem Activated.written (h : Activated sessionKey descriptor channel source trace) :
    ∃ activation, Control.written trace = encodeFrame ⟨ACTIVATION, activation⟩ := by
  obtain ⟨credential, encrypted, sent, rfl, -, -, hsent, -⟩ := h
  rw [written_cons, written_cons, written_cons, written_append, hsent]
  exact ⟨_, List.append_nil _⟩

theorem activateMedia_returns
    (run : Runs (activateMedia sessionKey descriptor channel) trace
      (.ret (some (source, channel')))) :
    Activated sessionKey descriptor channel source trace ∧ channel' = channel.sent := by
  obtain ⟨mediaPassword, front, tail, rfl, hpassword, htail⟩ := returns_bind_iff.mp run
  obtain ⟨credential, rest, rfl, hcredential⟩ := returns_perform_bind_iff.mp hpassword
  split at htail
  · simp at htail
  next hlength =>
  cases credential with
  | none =>
      obtain ⟨-, hempty⟩ := runs_ret_iff.mp hcredential
      cases hempty
      simp at hlength
  | some credential =>
      obtain ⟨rfl, hvalue⟩ := runs_ret_iff.mp hcredential
      cases hvalue
      obtain ⟨virtualCamera, tail, rfl, hcamera⟩ := returns_perform_bind_iff.mp htail
      split at hcamera
      · simp at hcamera
      next hfound =>
      obtain ⟨⟨complete, after⟩, sent, tail, rfl, hsent, hready⟩ := returns_bind_iff.mp hcamera
      cases complete with
      | false => simp at hready
      | true =>
          obtain ⟨ready, rest, rfl, hrest⟩ := returns_perform_bind_iff.mp hready
          cases ready with
          | false => simp at hrest
          | true =>
              obtain ⟨rfl, hresult⟩ := runs_ret_iff.mp hrest
              cases hresult
              obtain ⟨-, -, hafter, encrypted, sent, rfl, hwritten, hreceived, hencrypted⟩ :=
                AuthenticatedChannel.send_returns_true hsent
              refine ⟨⟨credential, encrypted, sent, rfl, rfl, ?_, hwritten, hreceived,
                hencrypted⟩, hafter⟩
              rintro rfl
              exact hfound rfl

end Stages

section Gate

variable {inetPton : Bytes → Bool} {clientIp : Bytes} {secret : Block 32} {pairingExpires : Time}
  {channel : AuthenticatedChannel} {source : MediaSource} {passes : Nat} {trace : Trace}
  {stop : Program ClientOutcome}

/-- What a connection has done, in this order, when it starts its pipeline: the handshake, the
keys of the channel, the descriptor at sequence 0, the activation and the probe. -/
def MediaGate (inetPton : Bytes → Bool) (clientIp : Bytes) (secret : Block 32)
    (pairingExpires : Time) (source : MediaSource) (channel : AuthenticatedChannel)
    (trace : Trace) : Prop :=
  ∃ (handshake : Handshake) (opened : AuthenticatedChannel) (descriptor : DeviceDescriptor)
    (shaken keyed described activated : Trace),
    trace = shaken ++ (keyed ++ (described ++ activated)) ∧
    Authenticated secret pairingExpires handshake shaken ∧
    Runs (AuthenticatedChannel.ofSessionKey handshake.sessionKey true) keyed (.ret opened) ∧
    opened.sendSequence = 0 ∧ opened.receiveSequence = 0 ∧
    Described inetPton clientIp opened descriptor described ∧
    Activated handshake.sessionKey descriptor opened.received source activated ∧
    channel = opened.received.sent

/-- Everything behind `mediaPipeline.start`. -/
def afterStart (passes : Nat) (channel : AuthenticatedChannel) : Bool → Program Bool
  | false => do
      ask .pipelineStop
      .ret false
  | true => do
      sessionLoop passes channel
      ask .pipelineStop
      ask .pipelineStop
      .ret true

theorem runMedia_eq (passes : Nat) (source : MediaSource) (channel : AuthenticatedChannel) :
    runMedia passes source channel =
      ask (.pipelineStart source.authenticatedRtspUrl source.virtualCamera) >>=
        afterStart passes channel := by
  unfold runMedia
  congr 1
  funext started
  cases started <;> rfl

def Op.Starts : Op → Prop
  | .pipelineStart _ _ => True
  | _ => False

theorem sessionPass_starts (channel : AuthenticatedChannel) :
    (sessionPass channel).Performs fun op => ¬ Op.Starts op := by
  refine ⟨id, fun mediaState => ?_⟩
  change Prog.Performs _ (if _ then _ else _)
  split
  · exact ⟨id, fun _ => trivial⟩
  refine ⟨id, fun answer => ?_⟩
  cases answer with
  | ready revents =>
      change Prog.Performs _ (if _ then _ else _)
      split
      · trivial
      · have hreceive : (channel.receive 2000).Performs fun op => ¬ Op.Starts op := by
          refine (outside_receive channel 2000).mono fun op hop hstarts => hop ?_
          cases op <;> trivial
        refine hreceive.bind fun received => ?_
        obtain ⟨frame, channel⟩ := received
        cases frame with
        | none => trivial
        | some frame =>
            dsimp only
            split <;> trivial
  | timeout => trivial
  | interrupted => trivial
  | failed => trivial

theorem sessionLoop_starts (passes : Nat) (channel : AuthenticatedChannel) :
    (sessionLoop passes channel).Performs fun op => ¬ Op.Starts op := by
  induction passes generalizing channel with
  | zero => trivial
  | succ passes ih =>
      refine (sessionPass_starts channel).bind fun next => ?_
      cases next with
      | none => trivial
      | some channel => exact ih channel

theorem afterStart_starts (passes : Nat) (channel : AuthenticatedChannel) (started : Bool) :
    (afterStart passes channel started).Performs fun op => ¬ Op.Starts op := by
  cases started with
  | false => exact ⟨id, fun _ => trivial⟩
  | true =>
      exact (sessionLoop_starts passes channel).bind fun _ => ⟨id, fun _ => ⟨id, fun _ => trivial⟩⟩

/-- Where a session stands at the start of its pipeline. -/
theorem runSession_starts {sessionKey : Block 32} {url device : Bytes} {next : Bool → Program Bool}
    (run : Runs (runSession inetPton passes clientIp sessionKey) trace
      (.call (.pipelineStart url device) next)) :
    ∃ (opened : AuthenticatedChannel) (descriptor : DeviceDescriptor) (source : MediaSource)
      (keyed described activated : Trace),
      url = source.authenticatedRtspUrl ∧ device = source.virtualCamera ∧
      next = afterStart passes opened.received.sent ∧
      trace = keyed ++ (described ++ activated) ∧
      Runs (AuthenticatedChannel.ofSessionKey sessionKey true) keyed (.ret opened) ∧
      Described inetPton clientIp opened descriptor described ∧
      Activated sessionKey descriptor opened.received source activated := by
  have hmedia : ¬ ¬ Op.Media (.pipelineStart url device) := not_not.mpr trivial
  obtain ⟨opened, keyed, tail, rfl, hkeyed, htail⟩ :=
    run.stands_bind (outside_ofSessionKey sessionKey true) hmedia
  obtain ⟨answer, described, tail, rfl, hdescribed, hanswer⟩ :=
    htail.stands_bind (outside_acceptDescriptor inetPton clientIp opened) hmedia
  cases answer with
  | none => simp at hanswer
  | some answer =>
      obtain ⟨descriptor, accepted⟩ := answer
      obtain ⟨hdescriptor, rfl⟩ := acceptDescriptor_returns hdescribed
      obtain ⟨answer, activated, tail, rfl, hactivated, hstart⟩ :=
        hanswer.stands_bind (outside_activateMedia sessionKey descriptor opened.received) hmedia
      cases answer with
      | none => simp at hstart
      | some answer =>
          obtain ⟨source, active⟩ := answer
          obtain ⟨hsource, rfl⟩ := activateMedia_returns hactivated
          have hbegun : Runs (runMedia passes source opened.received.sent) tail _ := hstart
          rw [runMedia_eq, Prog.perform_bind] at hbegun
          rcases runs_call_iff.mp hbegun with ⟨rfl, hcall⟩ | ⟨started, rest, rfl, hrest⟩
          · cases hcall
            exact ⟨opened, descriptor, source, keyed, described, activated, rfl, rfl, rfl,
              by rw [List.append_nil], hkeyed, hdescriptor, hsource⟩
          · have hleft := (hrest.performs (afterStart_starts passes _ started)).2
            exact absurd trivial hleft.1

/-- Where a connection stands at the start of its pipeline, the gate is behind it. -/
theorem handleClient_starts {url device : Bytes} {next : Bool → Program ClientOutcome}
    (run : Runs (handleClient inetPton passes clientIp secret pairingExpires) trace
      (.call (.pipelineStart url device) next)) :
    ∃ source channel, url = source.authenticatedRtspUrl ∧ device = source.virtualCamera ∧
      MediaGate inetPton clientIp secret pairingExpires source channel trace ∧
      next = fun started => afterStart passes channel started >>= fun result =>
        .ret ⟨result, true⟩ := by
  have hmedia : ¬ ¬ Op.Media (.pipelineStart url device) := not_not.mpr trivial
  obtain ⟨answer, shaken, tail, rfl, hshaken, hanswer⟩ :=
    run.stands_bind (outside_authenticateClient secret pairingExpires) hmedia
  cases answer with
  | none => simp at hanswer
  | some handshake =>
      obtain ⟨first, hsession, rfl⟩ := @Runs.stands_left _ _ _ _ (fun _ => False) _ _ _ _ _ hanswer
        (fun _ => trivial) id
      obtain ⟨opened, descriptor, source, keyed, described, activated, rfl, rfl, rfl, rfl, hkeyed,
        hdescribed, hactivated⟩ := runSession_starts hsession
      obtain ⟨-, hsend, hreceive⟩ := AuthenticatedChannel.ofSessionKey_returns hkeyed
      exact ⟨source, _, rfl, rfl, ⟨handshake, opened, descriptor, shaken, keyed, described,
        activated, rfl, authenticateClient_returns hshaken, hkeyed, hsend, hreceive, hdescribed,
        hactivated, rfl⟩, rfl⟩

theorem silent_ofSessionKey (sessionKey : Block 32) (serverSide : Bool) :
    (AuthenticatedChannel.ofSessionKey sessionKey serverSide).Performs Op.Silent := by
  refine ⟨trivial, fun sendKey => ?_⟩
  cases sendKey with
  | none => trivial
  | some sendKey =>
      refine ⟨trivial, fun receiveKey => ?_⟩
      cases receiveKey <;> trivial

/-- The three frames that have been written, the last of them the only activation. -/
def OneActivation (trace : Trace) : Prop :=
  ∃ (serverNonce serverProof : Block 32) (activation : Bytes),
    written trace = encodeFrame ⟨SERVER_HELLO, serverNonce.val⟩ ++
      encodeFrame ⟨SERVER_AUTH, serverProof.val⟩ ++ encodeFrame ⟨ACTIVATION, activation⟩

theorem MediaGate.oneActivation
    (h : MediaGate inetPton clientIp secret pairingExpires source channel trace) :
    OneActivation trace := by
  obtain ⟨handshake, opened, descriptor, shaken, keyed, described, activated, rfl, hshaken,
    hkeyed, -, -, hdescribed, hactivated, -⟩ := h
  obtain ⟨serverProof, hproof⟩ := hshaken.written
  obtain ⟨activation, hactivation⟩ := hactivated.written
  have hquiet : written keyed = [] :=
    written_eq_nil (hkeyed.performs (silent_ofSessionKey _ _)).1
  refine ⟨handshake.serverNonce, serverProof, activation, ?_⟩
  rw [written_append, written_append, written_append, hproof, hquiet, hdescribed.written,
    hactivation, List.nil_append, List.nil_append]

end Gate

section Loop

variable {channel channel' : AuthenticatedChannel} {passes : Nat} {trace : Trace}

def Playing (mediaState : MediaPipelineState) : Prop := mediaState ≠ .failed ∧ mediaState ≠ .stopped

/-- A pass behind which the loop goes on: nothing came, or an authenticated error report. -/
inductive Continued (channel : AuthenticatedChannel) : Trace → AuthenticatedChannel → Prop where
  | idle {mediaState : MediaPipelineState} {answer : PollResult} (playing : Playing mediaState)
      (nothing : answer = .timeout ∨ answer = .interrupted) :
      Continued channel [⟨.pipelineState, mediaState⟩, ⟨.pollClient 250, answer⟩] channel
  | reported {mediaState : MediaPipelineState} {revents : Revents} {message : Bytes}
      {arrival : Trace} (playing : Playing mediaState)
      (accepted : Accepted channel ⟨ERROR_REPORT, message⟩ arrival) :
      Continued channel (⟨.pipelineState, mediaState⟩ :: ⟨.pollClient 250, .ready revents⟩ ::
        arrival) channel.received

inductive Continues : AuthenticatedChannel → Trace → AuthenticatedChannel → Prop where
  | begin (channel : AuthenticatedChannel) : Continues channel [] channel
  | pass {channel middle last : AuthenticatedChannel} {front back : Trace}
      (first : Continued channel front middle) (rest : Continues middle back last) :
      Continues channel (front ++ back) last

theorem sessionPass_continues
    (run : Runs (sessionPass channel) trace (.ret (some channel'))) :
    Continued channel trace channel' := by
  obtain ⟨mediaState, tail, rfl, hstate⟩ := returns_perform_bind_iff.mp run
  split at hstate
  · obtain ⟨_, rest, -, hrest⟩ := returns_perform_bind_iff.mp hstate
    simp at hrest
  next hplaying =>
  have hplaying : Playing mediaState := not_or.mp hplaying
  obtain ⟨answer, tail, rfl, hanswer⟩ := returns_perform_bind_iff.mp hstate
  cases answer with
  | ready revents =>
      dsimp only at hanswer
      split at hanswer
      · simp at hanswer
      obtain ⟨⟨frame, after⟩, arrival, rest, rfl, harrival, hrest⟩ := returns_bind_iff.mp hanswer
      cases frame with
      | none => simp at hrest
      | some incoming =>
          obtain ⟨haccepted, rfl⟩ := receive_accepted harrival
          obtain ⟨type, message⟩ := incoming
          dsimp only at hrest
          split at hrest
          · simp at hrest
          next htype =>
          obtain ⟨rfl, hchannel⟩ := runs_ret_iff.mp hrest
          cases hchannel
          obtain rfl : type = ERROR_REPORT := not_not.mp htype
          rw [List.append_nil]
          exact .reported hplaying haccepted
  | timeout =>
      obtain ⟨rfl, hchannel⟩ := runs_ret_iff.mp hanswer
      cases hchannel
      exact .idle hplaying (.inl rfl)
  | interrupted =>
      obtain ⟨rfl, hchannel⟩ := runs_ret_iff.mp hanswer
      cases hchannel
      exact .idle hplaying (.inr rfl)
  | failed => simp at hanswer

/-- A pass asks for the pipeline's state once, at its beginning. -/
theorem sessionPass_stands {next : MediaPipelineState → Program (Option AuthenticatedChannel)}
    (run : Runs (sessionPass channel) trace (.call .pipelineState next)) : trace = [] := by
  rcases runs_call_iff.mp run with ⟨rfl, -⟩ | ⟨mediaState, tail, rfl, hstate⟩
  · rfl
  exfalso
  change Runs (if _ then _ else _) tail _ at hstate
  split at hstate
  · obtain ⟨_, rest, -, hrest⟩ := (stands_perform_bind_iff (by simp)).mp hstate
    simp at hrest
  obtain ⟨answer, tail, -, hanswer⟩ := (stands_perform_bind_iff (by simp)).mp hstate
  cases answer with
  | ready revents =>
      dsimp only at hanswer
      split at hanswer
      · simp at hanswer
      obtain ⟨⟨frame, after⟩, arrival, rest, -, -, hrest⟩ :=
        hanswer.stands_bind (outside_receive channel 2000) (not_not.mpr trivial)
      cases frame with
      | none => simp at hrest
      | some incoming =>
          dsimp only at hrest
          split at hrest <;> simp at hrest
  | timeout => simp at hanswer
  | interrupted => simp at hanswer
  | failed => simp at hanswer

/-- By induction on the passes: what lies behind a loop that asks for the state again. -/
theorem sessionLoop_stands {next : MediaPipelineState → Program Unit}
    (run : Runs (sessionLoop passes channel) trace (.call .pipelineState next)) :
    ∃ channel', Continues channel trace channel' := by
  induction passes generalizing channel trace with
  | zero => simp [sessionLoop] at run
  | succ passes ih =>
      rcases runs_bind_iff.mp run with ⟨middle, hmiddle, hvalue, hstop⟩ |
        ⟨value, front, back, rfl, hfront, hback⟩
      · cases middle with
        | ret value => exact absurd rfl (hvalue value)
        | throw error => cases hstop
        | unfinished => cases hstop
        | call op later =>
            cases hstop
            obtain rfl := sessionPass_stands hmiddle
            exact ⟨channel, .begin channel⟩
      · cases value with
        | none => simp at hback
        | some kept =>
            obtain ⟨channel', hrest⟩ := ih hback
            exact ⟨channel', .pass (sessionPass_continues hfront) hrest⟩

theorem noThrow_receive (channel : AuthenticatedChannel) (timeoutMs : Int) :
    (channel.receive timeoutMs).NoThrow := by
  have hframe : (receiveFrame timeoutMs).NoThrow := by
    unfold receiveFrame deadlineFor
    refine Prog.NoThrow.bind ?_ fun deadline answer => ?_
    · split
      · trivial
      · exact fun _ => trivial
    cases answer with
    | none => trivial
    | some header =>
        change (receivePayload header timeoutMs deadline).NoThrow
        unfold receivePayload
        dsimp only
        split_ifs
        · trivial
        · trivial
        · trivial
        · intro answer
          cases answer <;> trivial
  unfold AuthenticatedChannel.receive
  split
  · trivial
  refine hframe.bind fun answer => ?_
  cases answer with
  | none => trivial
  | some wire =>
      change (channel.openFrame wire).NoThrow
      unfold AuthenticatedChannel.openFrame
      dsimp only
      split
      · trivial
      split
      · trivial
      · intro plaintext
        cases plaintext <;> trivial

theorem noThrow_sessionPass (channel : AuthenticatedChannel) : (sessionPass channel).NoThrow := by
  intro mediaState
  change Prog.NoThrow (if _ then _ else _)
  split
  · exact fun _ => trivial
  intro answer
  cases answer with
  | ready revents =>
      change Prog.NoThrow (if _ then _ else _)
      split
      · trivial
      refine (noThrow_receive channel 2000).bind fun received => ?_
      obtain ⟨frame, channel⟩ := received
      cases frame with
      | none => trivial
      | some frame =>
          dsimp only
          split <;> trivial
  | timeout => trivial
  | interrupted => trivial
  | failed => trivial

theorem noThrow_sessionLoop (passes : Nat) (channel : AuthenticatedChannel) :
    (sessionLoop passes channel).NoThrow := by
  induction passes generalizing channel with
  | zero => trivial
  | succ passes ih =>
      refine (noThrow_sessionPass channel).bind fun next => ?_
      cases next with
      | none => trivial
      | some channel => exact ih channel

end Loop

section Outcome

variable {inetPton : Bytes → Bool} {clientIp : Bytes} {secret : Block 32} {pairingExpires : Time}
  {channel : AuthenticatedChannel} {passes : Nat} {trace : Trace} {stop : Program ClientOutcome}

/-- The frames `SERVER_HELLO` and `SERVER_AUTH` have been written to their ends. -/
def ServerAuthSent (trace : Trace) : Prop :=
  ∃ serverNonce serverProof : Block 32, encodeFrame ⟨SERVER_HELLO, serverNonce.val⟩ ++
    encodeFrame ⟨SERVER_AUTH, serverProof.val⟩ <+: written trace

/-- The flag says whether the second frame of the controller was sent. -/
theorem authenticated_iff {outcome : ClientOutcome}
    (run : Runs (handleClient inetPton passes clientIp secret pairingExpires) trace
      (.ret outcome)) : outcome.authenticated = true ↔ ServerAuthSent trace := by
  obtain ⟨answer, shaken, rest, rfl, hshaken, hrest⟩ := returns_bind_iff.mp run
  cases answer with
  | none =>
      obtain ⟨rfl, houtcome⟩ := runs_ret_iff.mp hrest
      cases houtcome
      refine iff_of_false Bool.false_ne_true ?_
      rintro ⟨serverNonce, serverProof, hsent⟩
      have hlong := hsent.length_le
      have hshort := authenticateClient_none hshaken
      rw [List.append_nil, List.length_append, encodeFrame_length, encodeFrame_length,
        serverNonce.property, serverProof.property] at hlong
      omega
  | some handshake =>
      obtain ⟨result, session, last, rfl, -, hlast⟩ := returns_bind_iff.mp hrest
      obtain ⟨rfl, houtcome⟩ := runs_ret_iff.mp hlast
      cases houtcome
      obtain ⟨serverProof, hproof⟩ := (authenticateClient_returns hshaken).written
      refine iff_of_true rfl ⟨handshake.serverNonce, serverProof, ?_⟩
      rw [written_append, hproof]
      exact List.prefix_append _ _

/-- A session that returns has stopped its pipeline, and the destructor has once more. -/
theorem afterStart_returns {outcome : ClientOutcome}
    (run : Runs (afterStart passes channel true >>= fun result => .ret ⟨result, true⟩) trace
      (.ret outcome)) :
    ∃ session, trace = session ++ [⟨.pipelineStop, ()⟩, ⟨.pipelineStop, ()⟩] := by
  obtain ⟨result, media, last, rfl, hmedia, hlast⟩ := returns_bind_iff.mp run
  obtain ⟨rfl, -⟩ := runs_ret_iff.mp hlast
  obtain ⟨_, session, tail, rfl, -, htail⟩ := returns_bind_iff.mp hmedia
  obtain ⟨_, tail, rfl, hstopped⟩ := returns_perform_bind_iff.mp htail
  obtain ⟨_, tail, rfl, hdestroyed⟩ := returns_perform_bind_iff.mp hstopped
  obtain ⟨rfl, -⟩ := runs_ret_iff.mp hdestroyed
  exact ⟨session, by rw [List.append_nil]⟩

/-- Whatever the client, the randomness, the libraries, the devices and the probe do: a
pipeline starts only behind its gate, with one activation sent; the loop behind it goes on only
past quiet passes and authenticated error reports; every exit stops the pipeline; and the flag
says whether `SERVER_AUTH` was sent. -/
theorem sessionGating (run : Runs (handleClient inetPton passes clientIp secret pairingExpires)
    trace stop) :
    (∀ front back url device started,
      trace = front ++ ⟨.pipelineStart url device, started⟩ :: back →
      ∃ source channel, url = source.authenticatedRtspUrl ∧ device = source.virtualCamera ∧
        MediaGate inetPton clientIp secret pairingExpires source channel front ∧
        OneActivation front ∧
        (started = true →
          (∀ before mediaState rest, back = before ++ ⟨.pipelineState, mediaState⟩ :: rest →
            ∃ channel', Continues channel before channel') ∧
          (∀ outcome, stop = .ret outcome →
            ∃ session, back = session ++ [⟨.pipelineStop, ()⟩, ⟨.pipelineStop, ()⟩]) ∧
          ∀ error, stop ≠ .throw error)) ∧
      ∀ outcome, stop = .ret outcome → (outcome.authenticated = true ↔ ServerAuthSent trace) := by
  constructor
  · rintro front back url device started rfl
    obtain ⟨middle, hfront, hback⟩ := runs_append_iff.mp run
    obtain ⟨next, rfl, hnext⟩ := runs_cons_iff.mp hback
    obtain ⟨source, channel, hurl, hdevice, hgate, rfl⟩ := handleClient_starts hfront
    refine ⟨source, channel, hurl, hdevice, hgate, hgate.oneActivation, ?_⟩
    rintro rfl
    refine ⟨?_, ?_, ?_⟩
    · rintro before mediaState rest rfl
      obtain ⟨middle, hbefore, hstate⟩ := runs_append_iff.mp hnext
      obtain ⟨later, rfl, -⟩ := runs_cons_iff.mp hstate
      have hstop : ¬ (.pipelineState : Op) ≠ .pipelineState := not_not.mpr rfl
      obtain ⟨inner, hmedia, -⟩ := hbefore.stands_left (fun _ => trivial) hstop
      obtain ⟨inmost, hloop, -⟩ := hmedia.stands_left
        (fun _ => ⟨nofun, fun _ => ⟨nofun, fun _ => trivial⟩⟩) hstop
      exact sessionLoop_stands hloop
    · rintro outcome rfl
      exact afterStart_returns hnext
    · rintro error rfl
      have hquiet : (afterStart passes channel true >>= fun result =>
          (.ret ⟨result, true⟩ : Program ClientOutcome)).NoThrow :=
        Prog.NoThrow.bind ((noThrow_sessionLoop passes channel).bind
          fun _ _ => fun _ => trivial) fun _ => trivial
      exact hnext.noThrow hquiet
  · rintro outcome rfl
    exact authenticated_iff run

/-- What a phone describes. -/
def mediaUrl : Bytes := ascii "rtsp://1:8554/live/00000000000000000000000000000000"

def mediaDescriptor : Bytes := encodeDeviceDescriptor ⟨ascii "a", mediaUrl, [⟨1, 1⟩], [], []⟩

def evenBlock : Block 32 := ⟨List.replicate 32 7, List.length_replicate⟩

/-- What a phone sends, read by read. -/
def clientReads : Nat → Bytes
  | 0 => encodeHeader CLIENT_AUTH 64
  | 1 => List.replicate 64 7
  | 2 => encodeHeader DESCRIPTOR (mediaDescriptor.length + 24)
  | 3 => List.replicate (mediaDescriptor.length + 24) 0
  | _ => []

/-- Surroundings in which every call succeeds and the pipeline fails at once. -/
def clientAnswer : (op : Op) → Nat → Option (op.Res × Nat)
  | .now, reads => some (0, reads)
  | .randBytes, reads => some (some evenBlock, reads)
  | .hmac _ _, reads => some (some evenBlock, reads)
  | .hkdfExpand _ _, reads => some (some evenBlock, reads)
  | .hkdfExtractAndExpand _ _ _, reads => some (some evenBlock, reads)
  | .gcmEncrypt _ _ _ plaintext, reads =>
      some (some ⟨List.replicate (plaintext.length + 16) 0, List.length_replicate⟩, reads)
  | .gcmDecrypt _ _ _ _ _, reads => some (some mediaDescriptor, reads)
  | .constantTimeEqual left right, reads =>
      some (⟨left == right, beq_iff_eq⟩, reads)
  | .writeAll _ _ _, reads => some (true, reads)
  | .readAll size _ _, reads =>
      if h : (clientReads reads).length = size then some (some ⟨clientReads reads, h⟩, reads + 1)
      else some (none, reads + 1)
  | .findOpenCamDevice, reads => some (ascii "/dev/video42", reads)
  | .waitForRtsp _, reads => some (true, reads)
  | .pipelineStart _ _, reads => some (true, reads)
  | .pipelineState, reads => some (.failed, reads)
  | .pipelineErrorMessage, reads => some ([], reads)
  | .pipelineStop, reads => some ((), reads)
  | _, _ => none

def clientExecution : Execution Op Op.Res ClientOutcome Nat :=
  (handleClient (fun _ => true) 1 (ascii "1") evenBlock 1).execute clientAnswer 0

theorem clientExecution_starts : clientExecution.trace[28]? =
    some ⟨.pipelineStart (authenticatedRtspUrl (encodeHex evenBlock.val) mediaUrl)
      (ascii "/dev/video42"), true⟩ := rfl

theorem sessionGating_media : ServerAuthSent clientExecution.trace ∧
    ∃ front back source channel, MediaGate (fun _ => true) (ascii "1") evenBlock 1 source channel
        front ∧ OneActivation front ∧ clientExecution.trace = front ++
          ⟨.pipelineStart source.authenticatedRtspUrl source.virtualCamera, true⟩ :: back := by
  have hrun : Runs (handleClient (fun _ => true) 1 (ascii "1") evenBlock 1) clientExecution.trace
      (.ret ⟨true, true⟩) := Prog.execute_runs clientAnswer _ 0
  obtain ⟨hgate, hflag⟩ := sessionGating hrun
  refine ⟨(hflag _ rfl).mp rfl, ?_⟩
  obtain ⟨front, back, htrace⟩ :=
    List.append_of_mem (List.mem_of_getElem? clientExecution_starts)
  obtain ⟨source, channel, hurl, hdevice, hfront, hactivation, -⟩ :=
    hgate front back _ _ true htrace
  rw [hurl, hdevice] at htrace
  exact ⟨front, back, source, channel, hfront, hactivation, htrace⟩

end Outcome

end OpenCam.Linux
