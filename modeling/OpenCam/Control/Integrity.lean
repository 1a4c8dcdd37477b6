import OpenCam.Control.Agreement

/-!
The encrypted channel over a network that may do anything. Two endpoints send
and receive concurrently; whatever arrives is the network's choice, and only
authenticated decryption is idealised: it succeeds only on an output of
encryption under the same key, nonce and associated data. What one side
accepts is then always a beginning of what the other has sent.
-/

namespace OpenCam.Control

open Octets Interaction

/-- One output of authenticated encryption, or one input that decryption accepts. -/
structure Sealing where
  key : Bytes
  nonce : Bytes
  aad : Bytes
  plaintext : Bytes
  /-- Ciphertext and tag. -/
  output : Bytes
deriving DecidableEq

def Action.sealing : Action → Option Sealing
  | ⟨.gcmEncrypt key nonce aad plaintext, some encrypted⟩ =>
      some ⟨key, nonce, aad, plaintext, encrypted.val⟩
  | _ => none

def Action.opening : Action → Option Sealing
  | ⟨.gcmDecrypt key nonce aad ciphertext tag, some plaintext⟩ =>
      some ⟨key, nonce, aad, plaintext, ciphertext ++ tag⟩
  | _ => none

def sealings (trace : Trace) : List Sealing := trace.filterMap Action.sealing

def openings (trace : Trace) : List Sealing := trace.filterMap Action.opening

theorem sealings_append (front back : Trace) :
    sealings (front ++ back) = sealings front ++ sealings back := by simp [sealings]

/-- A message as its receiver sees it. -/
structure Message where
  type : Int
  payload : Bytes
deriving DecidableEq

def Frame.message (frame : Frame) : Message := ⟨frame.type.toNat, frame.payload⟩

inductive Implementation where
  | linux
  | android
deriving DecidableEq

/-- A channel of either implementation. -/
inductive Endpoint where
  | linux (channel : Linux.AuthenticatedChannel)
  | android (channel : Android.AuthenticatedChannel)

namespace Endpoint

def construct (sessionKey : Block 32) (serverSide : Bool) : Implementation → Program Endpoint
  | .linux => do
      let channel ← Linux.AuthenticatedChannel.ofSessionKey sessionKey serverSide
      .ret (.linux channel)
  | .android => do
      let channel ← Android.AuthenticatedChannel.ofSessionKey sessionKey.val serverSide
      .ret (.android channel)

/-- `some` is a successful call; an unsuccessful one returns `none` or throws. -/
def send (type : UInt8) (payload : Bytes) (timeoutMs : Int) : Endpoint → Program (Option Endpoint)
  | .linux channel => do
      let result ← channel.send type payload timeoutMs
      .ret (if result.1 then some (.linux result.2) else none)
  | .android channel => do
      let channel' ← channel.send type.toNat payload
      .ret (some (.android channel'))

/-- What the call accepts and the endpoint it leaves. -/
def receive (timeoutMs : Int) : Endpoint → Program (Option Message × Endpoint)
  | .linux channel => do
      let result ← channel.receive timeoutMs
      .ret (result.1.map Frame.message, .linux result.2)
  | .android channel => do
      match ← (channel.receive timeoutMs).attempt with
      | .ok (frame, channel') => .ret (some ⟨frame.type, frame.payload⟩, .android channel')
      | .error _ => .ret (none, .android channel)

def serverSide : Endpoint → Bool
  | .linux channel => channel.serverSide
  | .android channel => channel.serverSide

def sendSequence : Endpoint → Nat
  | .linux channel => channel.sendSequence.toNat
  | .android channel => channel.sendSequence.toNat

def receiveSequence : Endpoint → Nat
  | .linux channel => channel.receiveSequence.toNat
  | .android channel => channel.receiveSequence.toNat

def InRange : Endpoint → Prop
  | .linux _ => True
  | .android channel => channel.InRange

end Endpoint

section Calls

variable {endpoint endpoint' : Endpoint} {type : UInt8} {payload : Bytes} {timeoutMs : Int}
  {trace : Trace}

/-- The sealing carries this frame as message `n` of one side. -/
def Sealing.Carries (sealing : Sealing) (serverSide : Bool) (n : Nat) (frame : Frame) : Prop :=
  sealing.nonce = gcmNonce serverSide n ∧
    sealing.aad = encodeHeader frame.type (frame.payload.length + 24) ∧
    sealing.plaintext = frame.payload

theorem sealings_eq_nil {trace : Trace} (h : ∀ event ∈ trace, event.op.IsTransfer) :
    sealings trace = [] := by
  rw [sealings, List.filterMap_eq_nil_iff]
  rintro ⟨op, res⟩ hmem
  have hop : op.IsTransfer := h _ hmem
  cases op <;> first | rfl | exact hop.elim

/-- A program that encrypts first and then only writes seals one thing at most. -/
theorem sealings_of_encrypt {α : Type} {key nonce aad plaintext : Bytes}
    {next : Option (Block (plaintext.length + 16)) → Program α} {stop : Program α}
    (hnext : ∀ encrypted, (next encrypted).Performs Op.IsTransfer)
    (run : Runs (.call (.gcmEncrypt key nonce aad plaintext) next) trace stop) {sealing : Sealing}
    (hmem : sealing ∈ sealings trace) :
    sealing.nonce = nonce ∧ sealing.aad = aad ∧ sealing.plaintext = plaintext := by
  rcases runs_call_iff.mp run with ⟨rfl, rfl⟩ | ⟨encrypted, rest, rfl, hrest⟩
  · simp [sealings] at hmem
  · have hquiet : sealings rest = [] := sealings_eq_nil (hrest.performs (hnext encrypted)).1
    have hmem' : sealing ∈ sealings [(⟨.gcmEncrypt key nonce aad plaintext, encrypted⟩ : Action)] := by
      have hsplit := sealings_append [⟨.gcmEncrypt key nonce aad plaintext, encrypted⟩] rest
      rw [hquiet, List.append_nil] at hsplit
      rw [← hsplit]
      exact hmem
    cases encrypted with
    | none => simp [sealings, Action.sealing] at hmem'
    | some block =>
        obtain rfl : sealing = ⟨key, nonce, aad, plaintext, block.val⟩ := by
          simpa [sealings, Action.sealing] using hmem'
        exact ⟨rfl, rfl, rfl⟩

theorem sealings_of_android_encrypt {α : Type} {key nonce aad plaintext : Bytes}
    {next : Bytes → Program α} {stop : Program α}
    (hnext : ∀ encrypted, (next encrypted).Performs Op.IsTransfer)
    (run : Runs (Android.encrypt key nonce aad plaintext >>= next) trace stop) {sealing : Sealing}
    (hmem : sealing ∈ sealings trace) :
    sealing.nonce = nonce ∧ sealing.aad = aad ∧ sealing.plaintext = plaintext := by
  rw [Android.encrypt, Prog.bind_assoc] at run
  refine sealings_of_encrypt (fun encrypted => ?_) run hmem
  cases encrypted with
  | none => trivial
  | some block => exact hnext block.val

theorem linux_send_seals {channel : Linux.AuthenticatedChannel}
    {stop : Program (Bool × Linux.AuthenticatedChannel)}
    (run : Runs (channel.send type payload timeoutMs) trace stop) {sealing : Sealing}
    (hmem : sealing ∈ sealings trace) :
    sealing.Carries channel.serverSide channel.sendSequence.toNat ⟨type, payload⟩ := by
  by_cases hsequence : channel.sendSequence = 0xffffffffffffffff
  · rw [Linux.AuthenticatedChannel.send, if_pos hsequence] at run
    rw [(runs_ret_iff.mp run).1] at hmem
    simp [sealings] at hmem
  by_cases hsize : payload.length + 24 ≤ 65536
  · rw [Linux.AuthenticatedChannel.send_eq hsequence hsize] at run
    refine sealings_of_encrypt (fun encrypted => ?_) run hmem
    cases encrypted with
    | none => trivial
    | some block =>
        refine (Linux.sendFrame_performs _ _ _).bind fun sent => ?_
        cases sent <;> trivial
  · rw [Linux.AuthenticatedChannel.send, if_neg hsequence, if_pos (by
      simp only [Linux.ENCRYPTED_OVERHEAD, Linux.GCM_TAG_SIZE, Linux.MAX_PAYLOAD]
      omega)] at run
    rw [(runs_ret_iff.mp run).1] at hmem
    simp [sealings] at hmem

theorem android_send_seals {channel : Android.AuthenticatedChannel} (hrange : channel.InRange)
    {stop : Program Android.AuthenticatedChannel}
    (run : Runs (channel.send type.toNat payload) trace stop) {sealing : Sealing}
    (hmem : sealing ∈ sealings trace) :
    sealing.Carries channel.serverSide channel.sendSequence.toNat ⟨type, payload⟩ := by
  by_cases hsequence : channel.sendSequence = Android.LONG_MAX_VALUE
  · rw [Android.AuthenticatedChannel.send, if_pos hsequence] at run
    rw [(runs_throw_iff.mp run).1] at hmem
    simp [sealings] at hmem
  by_cases hsize : Android.wrapInt (payload.length + Android.ENCRYPTED_OVERHEAD) ≤
      Android.MAX_PAYLOAD
  · rw [Android.AuthenticatedChannel.send_eq _ hrange hsequence hsize,
      Android.toByte_natCast] at run
    refine sealings_of_android_encrypt (fun encrypted => ?_) run hmem
    generalize beBytes 8 channel.sendSequence.toNat ++ encrypted = wire
    exact (Android.writeFrame_performs _ wire).bind fun _ => trivial
  · rw [Android.AuthenticatedChannel.send, if_neg hsequence, Android.require,
      if_neg (by simpa using hsize)] at run
    rw [(runs_throw_iff.mp run).1] at hmem
    simp [sealings] at hmem

/-- However far a call has come, it has sealed nothing but its own frame. -/
theorem Endpoint.send_seals (hrange : endpoint.InRange) {stop : Program (Option Endpoint)}
    (run : Runs (endpoint.send type payload timeoutMs) trace stop) {sealing : Sealing}
    (hmem : sealing ∈ sealings trace) :
    sealing.Carries endpoint.serverSide endpoint.sendSequence ⟨type, payload⟩ := by
  cases endpoint with
  | linux channel =>
      rcases runs_bind_iff.mp run with ⟨middle, hrun, -, -⟩ | ⟨result, front, back, rfl, hrun, hback⟩
      · exact linux_send_seals hrun hmem
      · rw [(runs_ret_iff.mp hback).1, List.append_nil] at hmem
        exact linux_send_seals hrun hmem
  | android channel =>
      rcases runs_bind_iff.mp run with ⟨middle, hrun, -, -⟩ | ⟨result, front, back, rfl, hrun, hback⟩
      · exact android_send_seals hrange hrun hmem
      · rw [(runs_ret_iff.mp hback).1, List.append_nil] at hmem
        exact android_send_seals hrange hrun hmem

/-- A successful call advances the send counter and nothing else. -/
theorem Endpoint.send_returns (hrange : endpoint.InRange)
    (run : Runs (endpoint.send type payload timeoutMs) trace (.ret (some endpoint'))) :
    endpoint'.InRange ∧ endpoint'.serverSide = endpoint.serverSide ∧
      endpoint'.sendSequence = endpoint.sendSequence + 1 ∧
      endpoint'.receiveSequence = endpoint.receiveSequence ∧ endpoint.sendSequence < 2 ^ 64 := by
  cases endpoint with
  | linux channel =>
      obtain ⟨⟨sent, channel'⟩, front, back, rfl, hrun, hback⟩ := returns_bind_iff.mp run
      obtain ⟨-, hresult⟩ := runs_ret_iff.mp hback
      cases sent with
      | false => simp at hresult
      | true =>
          cases hresult
          obtain ⟨hsequence, -, rfl, -⟩ := Linux.AuthenticatedChannel.send_returns_true hrun
          have hlt := channel.sendSequence.toNat_lt
          have hne := UInt64.toNat_inj.ne.mpr hsequence
          change channel.sendSequence.toNat ≠ 2 ^ 64 - 1 at hne
          refine ⟨trivial, rfl, ?_, rfl, hlt⟩
          change (channel.sendSequence + 1).toNat = channel.sendSequence.toNat + 1
          rw [UInt64.toNat_add, UInt64.toNat_one]
          omega
  | android channel =>
      obtain ⟨channel', front, back, rfl, hrun, hback⟩ := returns_bind_iff.mp run
      obtain ⟨-, hresult⟩ := runs_ret_iff.mp hback
      cases hresult
      have hrange' : channel'.InRange := hrange.send hrun
      obtain ⟨-, -, rfl, -⟩ := Android.AuthenticatedChannel.send_returns hrange hrun
      obtain ⟨hlow, hhigh⟩ := hrange.sendSequence
      rw [Android.LONG_MAX_VALUE] at hhigh
      refine ⟨hrange', rfl, ?_, rfl, ?_⟩
      · change (channel.sendSequence + 1).toNat = channel.sendSequence.toNat + 1
        omega
      · change channel.sendSequence.toNat < 2 ^ 64
        omega

theorem openings_append (front back : Trace) :
    openings (front ++ back) = openings front ++ openings back := by simp [openings]

/-- An accepted frame is an opening under the next nonce of the other side; a
call that accepts nothing leaves the endpoint as it was. -/
theorem Endpoint.receive_returns (hrange : endpoint.InRange) {result : Option Message}
    (run : Runs (endpoint.receive timeoutMs) trace (.ret (result, endpoint'))) :
    match result with
    | none => endpoint' = endpoint
    | some message =>
        endpoint'.InRange ∧ endpoint'.serverSide = endpoint.serverSide ∧
        endpoint'.sendSequence = endpoint.sendSequence ∧
        endpoint'.receiveSequence = endpoint.receiveSequence + 1 ∧
        endpoint.receiveSequence < 2 ^ 64 ∧
        ∃ (type : UInt8) (size : Nat) (opening : Sealing), opening ∈ openings trace ∧
          message = ⟨type.toNat, opening.plaintext⟩ ∧
          opening.nonce = gcmNonce (!endpoint.serverSide) endpoint.receiveSequence ∧
          opening.aad = encodeHeader type size := by
  cases endpoint with
  | linux channel =>
      obtain ⟨⟨answer, channel'⟩, front, back, rfl, hrun, hback⟩ := returns_bind_iff.mp run
      obtain ⟨rfl, hresult⟩ := runs_ret_iff.mp hback
      have hreceive := Linux.AuthenticatedChannel.receive_returns hrun
      cases answer with
      | none =>
          cases hresult
          exact congrArg Endpoint.linux hreceive
      | some frame =>
          cases hresult
          obtain ⟨hsequence, rfl, ciphertext, tag, arrival, -, -, -, rfl⟩ := hreceive
          have hlt := channel.receiveSequence.toNat_lt
          have hne := UInt64.toNat_inj.ne.mpr hsequence
          change channel.receiveSequence.toNat ≠ 2 ^ 64 - 1 at hne
          refine ⟨trivial, rfl, rfl, ?_, hlt, frame.type, ciphertext.length + 24,
            ⟨channel.receiveKey.val, _, _, frame.payload, ciphertext ++ tag⟩, ?_, rfl, rfl, rfl⟩
          · change (channel.receiveSequence + 1).toNat = channel.receiveSequence.toNat + 1
            rw [UInt64.toNat_add, UInt64.toNat_one]
            omega
          · rw [List.append_nil, openings_append]
            exact List.mem_append_right _ (List.mem_singleton_self _)
  | android channel =>
      obtain ⟨answer, front, back, rfl, hrun, hback⟩ := returns_bind_iff.mp run
      rcases returns_attempt_iff.mp hrun with ⟨⟨frame, channel'⟩, rfl, hreceive⟩ | ⟨error, rfl, -⟩
      · obtain ⟨rfl, hresult⟩ := runs_ret_iff.mp hback
        cases hresult
        have hrange' : channel'.InRange := hrange.receive hreceive
        obtain ⟨hne, rfl, byte, ciphertext, tag, arrival, htype, -, -, -, rfl⟩ :=
          Android.AuthenticatedChannel.receive_returns hrange hreceive
        obtain ⟨hlow, hhigh⟩ := hrange.receiveSequence
        rw [Android.LONG_MAX_VALUE] at hhigh
        refine ⟨hrange', rfl, rfl, ?_, ?_, byte, ciphertext.length + 24,
          ⟨channel.receiveKey, _, _, frame.payload, ciphertext ++ tag⟩, ?_, by rw [htype], rfl, rfl⟩
        · change (channel.receiveSequence + 1).toNat = channel.receiveSequence.toNat + 1
          omega
        · change channel.receiveSequence.toNat < 2 ^ 64
          omega
        · rw [List.append_nil, openings_append]
          exact List.mem_append_right _ (List.mem_singleton_self _)
      · obtain ⟨rfl, hresult⟩ := runs_ret_iff.mp hback
        cases hresult
        rfl

theorem Endpoint.construct_returns {sessionKey : Block 32} {serverSide : Bool}
    {implementation : Implementation}
    (run : Runs (Endpoint.construct sessionKey serverSide implementation) trace (.ret endpoint)) :
    endpoint.InRange ∧ endpoint.serverSide = serverSide ∧ endpoint.sendSequence = 0 ∧
      endpoint.receiveSequence = 0 := by
  cases implementation with
  | linux =>
      obtain ⟨channel, front, back, rfl, hrun, hback⟩ := returns_bind_iff.mp run
      obtain ⟨-, hresult⟩ := runs_ret_iff.mp hback
      cases hresult
      obtain ⟨hside, hsent, haccepted⟩ := Linux.AuthenticatedChannel.ofSessionKey_returns hrun
      exact ⟨trivial, hside, congrArg UInt64.toNat hsent, congrArg UInt64.toNat haccepted⟩
  | android =>
      obtain ⟨channel, front, back, rfl, hrun, hback⟩ := returns_bind_iff.mp run
      obtain ⟨-, hresult⟩ := runs_ret_iff.mp hback
      cases hresult
      obtain ⟨hside, hsent, haccepted⟩ := Android.AuthenticatedChannel.ofSessionKey_returns hrun
      refine ⟨⟨?_, ?_⟩, hside, congrArg Int.toNat hsent, congrArg Int.toNat haccepted⟩
      · rw [hsent, Android.LONG_MAX_VALUE]
        omega
      · rw [haccepted, Android.LONG_MAX_VALUE]
        omega

end Calls

section Network

/-- A send in progress: its frame and what it has done so far. -/
structure SendCall where
  frame : Frame
  timeoutMs : Int
  trace : Trace

/-- One party. Its sending and its receiving thread share nothing of the
channel: a call of one kind reads and assigns one key, one counter and the
constant `serverSide`, so the party is described by the channel as its sender
and as its receiver sees it. -/
structure Party where
  sender : Endpoint
  receiver : Endpoint
  sending : Option SendCall
  sent : List Frame
  accepted : List Message

/-- The frames of all calls of `send` that have not failed. -/
def Party.offered (party : Party) : List Frame :=
  party.sent ++ party.sending.toList.map SendCall.frame

structure NetworkState where
  /-- The server's and the client's party. -/
  parties : Bool → Party
  log : List Sealing

/-- The program a send in progress runs. -/
def SendCall.program (call : SendCall) (sender : Endpoint) : Program (Option Endpoint) :=
  sender.send call.frame.type call.frame.payload call.timeoutMs

/-- What one party does next. The network is in the answers: a receive may be
given any bytes, and its decryption fails on everything but a sealing of the
log. Only runs whose sends do not fail are considered. -/
inductive NetworkStep (state : NetworkState) : NetworkState → Prop where
  | begin (side : Bool) (frame : Frame) (timeoutMs : Int)
      (hidle : (state.parties side).sending = none) :
      NetworkStep state ⟨Function.update state.parties side
        { state.parties side with sending := some ⟨frame, timeoutMs, []⟩ }, state.log⟩
  | progress (side : Bool) (call : SendCall) (events : Trace) (stop : Program (Option Endpoint))
      (hcall : (state.parties side).sending = some call)
      (run : Runs (call.program (state.parties side).sender) (call.trace ++ events) stop) :
      NetworkStep state ⟨Function.update state.parties side
        { state.parties side with sending := some { call with trace := call.trace ++ events } },
        state.log ++ sealings events⟩
  | finish (side : Bool) (call : SendCall) (sender : Endpoint)
      (hcall : (state.parties side).sending = some call)
      (run : Runs (call.program (state.parties side).sender) call.trace (.ret (some sender))) :
      NetworkStep state ⟨Function.update state.parties side
        { state.parties side with
          sender := sender, sending := none, sent := (state.parties side).sent ++ [call.frame] },
        state.log⟩
  | receive (side : Bool) (timeoutMs : Int) (trace : Trace) (result : Option Message)
      (receiver : Endpoint)
      (run : Runs ((state.parties side).receiver.receive timeoutMs) trace
        (.ret (result, receiver)))
      (hauthentic : ∀ opening ∈ openings trace, opening ∈ state.log) :
      NetworkStep state ⟨Function.update state.parties side
        { state.parties side with
          receiver := receiver, accepted := (state.parties side).accepted ++ result.toList },
        state.log⟩

/-- Both channels have just been built from the session key. -/
def NetworkState.Initial (implementation : Bool → Implementation) (sessionKey : Block 32)
    (state : NetworkState) : Prop :=
  state.log = [] ∧ ∀ side, ∃ endpoint trace,
    Runs (Endpoint.construct sessionKey side (implementation side)) trace (.ret endpoint) ∧
    state.parties side = ⟨endpoint, endpoint, none, [], []⟩

def NetworkReachable (implementation : Bool → Implementation) (sessionKey : Block 32)
    (state : NetworkState) : Prop :=
  ∃ initial, initial.Initial implementation sessionKey ∧
    Relation.ReflTransGen NetworkStep initial state

/-- The party's counters stand at the numbers of its messages. -/
structure Party.Counts (side : Bool) (party : Party) : Prop where
  sender_inRange : party.sender.InRange
  sender_side : party.sender.serverSide = side
  sent : party.sender.sendSequence = party.sent.length
  receiver_inRange : party.receiver.InRange
  receiver_side : party.receiver.serverSide = side
  accepted : party.receiver.receiveSequence = party.accepted.length

structure NetworkInvariant (state : NetworkState) : Prop where
  counts : ∀ side, (state.parties side).Counts side
  /-- Every sealing carries the frame whose number it bears. -/
  sealed : ∀ sealing ∈ state.log, ∃ side n frame,
    (state.parties side).offered[n]? = some frame ∧ n < 2 ^ 64 ∧ sealing.Carries side n frame
  accepted : ∀ side,
    (state.parties side).accepted <+: (state.parties (!side)).offered.map Frame.message

theorem Endpoint.sendSequence_lt {endpoint : Endpoint} (hrange : endpoint.InRange) :
    endpoint.sendSequence < 2 ^ 64 := by
  cases endpoint with
  | linux channel => exact channel.sendSequence.toNat_lt
  | android channel =>
      have hhigh := hrange.sendSequence.2
      rw [Android.LONG_MAX_VALUE] at hhigh
      change channel.sendSequence.toNat < 2 ^ 64
      omega

variable {state state' : NetworkState}

theorem forall_update {parties : Bool → Party} {P : Bool → Party → Prop} {side : Bool}
    {party : Party} (hnew : P side party) (hold : ∀ other, P other (parties other)) (other : Bool) :
    P other (Function.update parties side party other) := by
  by_cases h : other = side
  · subst h
    rw [Function.update_self]
    exact hnew
  · rw [Function.update_of_ne h]
    exact hold other

/-- A party takes back nothing it has offered. -/
theorem NetworkStep.offered_prefix (step : NetworkStep state state') (side : Bool) :
    (state.parties side).offered <+: (state'.parties side).offered := by
  cases step with
  | begin actor frame timeoutMs hidle =>
      refine forall_update (P := fun other (party : Party) =>
        (state.parties other).offered <+: party.offered) ?_ (fun _ => List.prefix_rfl) side
      simp [Party.offered, hidle]
  | progress actor call events stop hcall run =>
      refine forall_update (P := fun other (party : Party) =>
        (state.parties other).offered <+: party.offered) ?_ (fun _ => List.prefix_rfl) side
      simp [Party.offered, hcall]
  | finish actor call sender hcall run =>
      refine forall_update (P := fun other (party : Party) =>
        (state.parties other).offered <+: party.offered) ?_ (fun _ => List.prefix_rfl) side
      simp [Party.offered, hcall]
  | receive actor timeoutMs trace result receiver run hauthentic =>
      refine forall_update (P := fun other (party : Party) =>
        (state.parties other).offered <+: party.offered) ?_ (fun _ => List.prefix_rfl) side
      exact List.prefix_rfl

theorem Party.offered_of_sending {party : Party} {call : SendCall}
    (hcall : party.sending = some call) : party.offered[party.sent.length]? = some call.frame := by
  simp [Party.offered, hcall]

theorem NetworkInvariant.counts_step (invariant : NetworkInvariant state)
    (step : NetworkStep state state') (side : Bool) : (state'.parties side).Counts side := by
  cases step with
  | begin actor frame timeoutMs hidle =>
      obtain ⟨h1, h2, h3, h4, h5, h6⟩ := invariant.counts actor
      refine forall_update (P := Party.Counts) ?_ invariant.counts side
      exact ⟨h1, h2, h3, h4, h5, h6⟩
  | progress actor call events stop hcall run =>
      obtain ⟨h1, h2, h3, h4, h5, h6⟩ := invariant.counts actor
      refine forall_update (P := Party.Counts) ?_ invariant.counts side
      exact ⟨h1, h2, h3, h4, h5, h6⟩
  | finish actor call sender hcall run =>
      obtain ⟨h1, h2, h3, h4, h5, h6⟩ := invariant.counts actor
      obtain ⟨hrange, hside, hcount, -, -⟩ := Endpoint.send_returns h1 run
      refine forall_update (P := Party.Counts) ?_ invariant.counts side
      refine ⟨hrange, hside.trans h2, ?_, h4, h5, h6⟩
      dsimp only
      rw [hcount, h3, List.length_append, List.length_singleton]
  | receive actor timeoutMs trace result receiver run hauthentic =>
      obtain ⟨h1, h2, h3, h4, h5, h6⟩ := invariant.counts actor
      have hreceive := Endpoint.receive_returns h4 run
      cases result with
      | none =>
          obtain rfl : receiver = _ := hreceive
          refine forall_update (P := Party.Counts) ?_ invariant.counts side
          refine ⟨h1, h2, h3, h4, h5, ?_⟩
          simpa using h6
      | some message =>
          obtain ⟨hrange, hside, -, hcount, -⟩ := hreceive
          refine forall_update (P := Party.Counts) ?_ invariant.counts side
          refine ⟨h1, h2, h3, hrange, hside.trans h5, ?_⟩
          dsimp only
          rw [hcount, h6]
          simp

theorem getElem?_of_prefix {α : Type} {front whole : List α} {index : Nat} {item : α}
    (h : front <+: whole) (hitem : front[index]? = some item) : whole[index]? = some item := by
  obtain ⟨rest, rfl⟩ := h
  rw [List.getElem?_append_left (List.getElem?_eq_some_iff.mp hitem).1, hitem]

/-- What was sealed before keeps its place, and a send in progress seals the
frame that its party offers next. -/
theorem NetworkInvariant.sealed_step (invariant : NetworkInvariant state)
    (step : NetworkStep state state') {sealing : Sealing} (hmem : sealing ∈ state'.log) :
    ∃ side n frame, (state'.parties side).offered[n]? = some frame ∧ n < 2 ^ 64 ∧
      sealing.Carries side n frame := by
  have hkept : sealing ∈ state.log → ∃ side n frame,
      (state'.parties side).offered[n]? = some frame ∧ n < 2 ^ 64 ∧
        sealing.Carries side n frame := by
    intro hold
    obtain ⟨side, n, frame, hframe, hlt, hcarries⟩ := invariant.sealed sealing hold
    exact ⟨side, n, frame, getElem?_of_prefix (step.offered_prefix side) hframe, hlt, hcarries⟩
  cases step with
  | begin actor frame timeoutMs hidle => exact hkept hmem
  | progress actor call events stop hcall run =>
      rcases List.mem_append.mp hmem with hold | hnew
      · exact hkept hold
      · have hcounts := invariant.counts actor
        have hcarries := Endpoint.send_seals hcounts.sender_inRange run
          (by rw [sealings_append]; exact List.mem_append_right _ hnew)
        rw [hcounts.sender_side, hcounts.sent] at hcarries
        have hlt := Endpoint.sendSequence_lt hcounts.sender_inRange
        rw [hcounts.sent] at hlt
        refine ⟨actor, (state.parties actor).sent.length, call.frame, ?_, hlt, hcarries⟩
        dsimp only
        rw [Function.update_self]
        simp [Party.offered]
  | finish actor call sender hcall run => exact hkept hmem
  | receive actor timeoutMs trace result receiver run hauthentic => exact hkept hmem

theorem prefix_append_of_getElem? {α : Type} {front whole : List α} {item : α}
    (h : front <+: whole) (hitem : whole[front.length]? = some item) : front ++ [item] <+: whole := by
  obtain ⟨rest, rfl⟩ := h
  rw [List.getElem?_append_right (le_refl _), Nat.sub_self] at hitem
  cases rest with
  | nil => simp at hitem
  | cons head tail =>
      obtain rfl : head = item := by simpa using hitem
      exact ⟨tail, by simp⟩

/-- An accepted message is the one its peer offered under the number that the
receiver expects: the opened sealing has a peer's nonce, so it carries a frame
of the peer, and the header in its associated data shows the frame's type. -/
theorem NetworkInvariant.opened (invariant : NetworkInvariant state) {side : Bool}
    {timeoutMs : Int} {trace : Trace} {message : Message} {receiver : Endpoint}
    (run : Runs ((state.parties side).receiver.receive timeoutMs) trace
      (.ret (some message, receiver)))
    (hauthentic : ∀ opening ∈ openings trace, opening ∈ state.log) :
    ((state.parties (!side)).offered.map Frame.message)[(state.parties side).accepted.length]? =
      some message := by
  have hcounts := invariant.counts side
  obtain ⟨-, -, -, -, hlt, type, size, opening, hopening, rfl, hnonce, haad⟩ :=
    Endpoint.receive_returns hcounts.receiver_inRange run
  obtain ⟨sender, n, frame, hframe, hn, hcarriesNonce, hcarriesAad, hplaintext⟩ :=
    invariant.sealed opening (hauthentic opening hopening)
  rw [hcounts.receiver_side, hcounts.accepted] at hnonce
  rw [hcounts.accepted] at hlt
  obtain ⟨rfl, rfl⟩ := gcmNonce_inj hn hlt (hcarriesNonce.symm.trans hnonce)
  obtain rfl : frame.type = type := encodeHeader_type (hcarriesAad.symm.trans haad)
  rw [List.getElem?_map, hframe, hplaintext]
  rfl

theorem NetworkInvariant.accepted_step (invariant : NetworkInvariant state)
    (step : NetworkStep state state') (side : Bool) :
    (state'.parties side).accepted <+: (state'.parties (!side)).offered.map Frame.message := by
  have hgrows : (state.parties (!side)).offered.map Frame.message <+:
      (state'.parties (!side)).offered.map Frame.message := (step.offered_prefix (!side)).map _
  suffices h : (state'.parties side).accepted <+:
      (state.parties (!side)).offered.map Frame.message from h.trans hgrows
  clear hgrows
  cases step with
  | begin actor frame timeoutMs hidle =>
      refine forall_update (P := fun other (party : Party) =>
        party.accepted <+: (state.parties (!other)).offered.map Frame.message) ?_
        invariant.accepted side
      exact invariant.accepted actor
  | progress actor call events stop hcall run =>
      refine forall_update (P := fun other (party : Party) =>
        party.accepted <+: (state.parties (!other)).offered.map Frame.message) ?_
        invariant.accepted side
      exact invariant.accepted actor
  | finish actor call sender hcall run =>
      refine forall_update (P := fun other (party : Party) =>
        party.accepted <+: (state.parties (!other)).offered.map Frame.message) ?_
        invariant.accepted side
      exact invariant.accepted actor
  | receive actor timeoutMs trace result receiver run hauthentic =>
      refine forall_update (P := fun other (party : Party) =>
        party.accepted <+: (state.parties (!other)).offered.map Frame.message) ?_
        invariant.accepted side
      cases result with
      | none => simpa using invariant.accepted actor
      | some message =>
          exact prefix_append_of_getElem? (invariant.accepted actor)
            (invariant.opened run hauthentic)

theorem NetworkInvariant.step (invariant : NetworkInvariant state)
    (step : NetworkStep state state') : NetworkInvariant state' where
  counts := invariant.counts_step step
  sealed := fun _ hmem => invariant.sealed_step step hmem
  accepted := invariant.accepted_step step

theorem NetworkInvariant.initial {implementation : Bool → Implementation} {sessionKey : Block 32}
    (initial : state.Initial implementation sessionKey) : NetworkInvariant state := by
  obtain ⟨hlog, hparties⟩ := initial
  refine ⟨fun side => ?_, by simp [hlog], fun side => ?_⟩
  · obtain ⟨endpoint, trace, run, hparty⟩ := hparties side
    obtain ⟨hrange, hside, hsent, haccepted⟩ := Endpoint.construct_returns run
    rw [hparty]
    exact ⟨hrange, hside, hsent, hrange, hside, haccepted⟩
  · obtain ⟨endpoint, trace, run, hparty⟩ := hparties side
    rw [hparty]
    exact List.nil_prefix

variable {implementation : Bool → Implementation} {sessionKey : Block 32}

theorem NetworkReachable.invariant (reachable : NetworkReachable implementation sessionKey state) :
    NetworkInvariant state := by
  obtain ⟨initial, hinitial, hsteps⟩ := reachable
  induction hsteps with
  | refl => exact .initial hinitial
  | tail _ hstep ih => exact ih.step hstep

theorem offered_prefix_of_steps (steps : Relation.ReflTransGen NetworkStep state state')
    (side : Bool) : (state.parties side).offered <+: (state'.parties side).offered := by
  induction steps with
  | refl => exact List.prefix_rfl
  | tail _ hstep ih => exact ih.trans (hstep.offered_prefix side)

/-- In every reachable state the messages one side has accepted are a beginning
of those its peer has sent, counting a send in progress as sent; when that send
has returned, of those passed to successful sends. The receive counter is
their number, and a receive that rejects its frame leaves the channel as it was. -/
theorem accepted_prefix (reachable : NetworkReachable implementation sessionKey state)
    (side : Bool) :
    (state.parties side).accepted <+: (state.parties (!side)).offered.map Frame.message ∧
    (∀ later, Relation.ReflTransGen NetworkStep state later →
      (later.parties (!side)).sending = none →
      (state.parties side).accepted <+: (later.parties (!side)).sent.map Frame.message) ∧
    (state.parties side).receiver.receiveSequence = (state.parties side).accepted.length ∧
    ∀ timeoutMs trace receiver,
      Runs ((state.parties side).receiver.receive timeoutMs) trace (.ret (none, receiver)) →
      receiver = (state.parties side).receiver := by
  have invariant := reachable.invariant
  refine ⟨invariant.accepted side, fun later hsteps hidle => ?_, (invariant.counts side).accepted,
    fun timeoutMs trace receiver run =>
      Endpoint.receive_returns (invariant.counts side).receiver_inRange run⟩
  have hoffered := offered_prefix_of_steps hsteps (!side)
  have hsent : (later.parties (!side)).offered = (later.parties (!side)).sent := by
    simp [Party.offered, hidle]
  rw [← hsent]
  exact (invariant.accepted side).trans (hoffered.map _)

section Session

def sampleServer : Endpoint := .linux (linuxChannel samplePrimitives sampleSessionKey true 0 0)

def sampleClient : Endpoint :=
  .android (androidChannel samplePrimitives sampleSessionKey false 0 0)

/-- What the phone does to send its descriptor. -/
def sampleSendTrace : Trace :=
  ((sampleClient.send 4 sampleDescriptor 5000).execute (standardAnswer samplePrimitives 0)
    ⟨[], []⟩).trace

def sampleReceiveTrace : Trace :=
  ((sampleServer.receive 5000).execute (standardAnswer samplePrimitives 0)
    ⟨messageBytes samplePrimitives sampleSessionKey false 0 4 sampleDescriptor, []⟩).trace

theorem sampleServer_constructed :
    (Endpoint.construct sampleSessionKey true .linux).Evaluates
      (standardAnswer samplePrimitives 0) ⟨[], []⟩ sampleServer ⟨[], []⟩ :=
  (linux_ofSessionKey_evaluates sampleSessionKey true _).bind (Prog.evaluates_ret _ _)

theorem sampleClient_constructed :
    (Endpoint.construct sampleSessionKey false .android).Evaluates
      (standardAnswer samplePrimitives 0) ⟨[], []⟩ sampleClient ⟨[], []⟩ :=
  (android_ofSessionKey_evaluates sampleSessionKey false _).bind (Prog.evaluates_ret _ _)

theorem sampleSend_run :
    Runs (sampleClient.send 4 sampleDescriptor 5000) sampleSendTrace
      (.ret (some (.android (androidChannel samplePrimitives sampleSessionKey false 1 0)))) := by
  have hchannel : ((androidChannel samplePrimitives sampleSessionKey false 0 0).send
      (4 : UInt8).toNat sampleDescriptor).Evaluates (standardAnswer samplePrimitives 0) ⟨[], []⟩
      (androidChannel samplePrimitives sampleSessionKey false 1 0) _ :=
    androidChannel_send false (by norm_num) (by norm_num) (by decide) ⟨[], []⟩
  have hsend : (sampleClient.send 4 sampleDescriptor 5000).Evaluates
      (standardAnswer samplePrimitives 0) ⟨[], []⟩
      (some (.android (androidChannel samplePrimitives sampleSessionKey false 1 0))) _ :=
    hchannel.bind (Prog.evaluates_ret _ _)
  exact hsend.runs

theorem sampleReceive_run :
    Runs (sampleServer.receive 5000) sampleReceiveTrace
      (.ret (some ⟨4, sampleDescriptor⟩,
        .linux (linuxChannel samplePrimitives sampleSessionKey true 0 1))) := by
  have hchannel : ((linuxChannel samplePrimitives sampleSessionKey true 0 0).receive
      5000).Evaluates (standardAnswer samplePrimitives 0)
      ⟨messageBytes samplePrimitives sampleSessionKey false 0 4 sampleDescriptor ++ [], []⟩
      (some ⟨4, sampleDescriptor⟩, linuxChannel samplePrimitives sampleSessionKey true 0 1) _ :=
    linuxChannel_receive false (by norm_num) (by decide) 5000 [] []
  rw [List.append_nil] at hchannel
  have hreceive : (sampleServer.receive 5000).Evaluates (standardAnswer samplePrimitives 0)
      ⟨messageBytes samplePrimitives sampleSessionKey false 0 4 sampleDescriptor, []⟩
      (some ⟨4, sampleDescriptor⟩,
        .linux (linuxChannel samplePrimitives sampleSessionKey true 0 1)) _ :=
    hchannel.bind (Prog.evaluates_ret _ _)
  exact hreceive.runs

theorem sampleReceive_authentic :
    ∀ opening ∈ openings sampleReceiveTrace, opening ∈ sealings sampleSendTrace := by
  have hsame : openings sampleReceiveTrace = sealings sampleSendTrace := by decide +kernel
  intro opening hopening
  rw [hsame] at hopening
  exact hopening

/-- The network with these two parties. -/
def pairState (server client : Party) (log : List Sealing) : NetworkState :=
  ⟨fun side => if side then server else client, log⟩

theorem pairState_update_client (server client client' : Party) (log log' : List Sealing) :
    (⟨Function.update (pairState server client log).parties false client', log'⟩ : NetworkState) =
      pairState server client' log' := by
  unfold pairState
  congr 1
  funext side
  cases side <;> rfl

theorem pairState_update_server (server server' client : Party) (log log' : List Sealing) :
    (⟨Function.update (pairState server client log).parties true server', log'⟩ : NetworkState) =
      pairState server' client log' := by
  unfold pairState
  congr 1
  funext side
  cases side <;> rfl

/-- The phone sends its descriptor and the controller receives it. -/
def sampleFinalState : NetworkState :=
  pairState
    ⟨sampleServer, .linux (linuxChannel samplePrimitives sampleSessionKey true 0 1), none, [],
      [⟨4, sampleDescriptor⟩]⟩
    ⟨.android (androidChannel samplePrimitives sampleSessionKey false 1 0), sampleClient, none,
      [⟨4, sampleDescriptor⟩], []⟩
    (sealings sampleSendTrace)

theorem sampleFinalState_reachable :
    NetworkReachable (fun side => if side then .linux else .android) sampleSessionKey
      sampleFinalState := by
  refine ⟨pairState ⟨sampleServer, sampleServer, none, [], []⟩
    ⟨sampleClient, sampleClient, none, [], []⟩ [], ⟨rfl, fun side => ?_⟩, ?_⟩
  · cases side with
    | false => exact ⟨_, _, sampleClient_constructed.runs, rfl⟩
    | true => exact ⟨_, _, sampleServer_constructed.runs, rfl⟩
  · have hbegin : NetworkStep (pairState ⟨sampleServer, sampleServer, none, [], []⟩
        ⟨sampleClient, sampleClient, none, [], []⟩ []) _ :=
      .begin false ⟨4, sampleDescriptor⟩ 5000 rfl
    rw [pairState_update_client] at hbegin
    have hprogress : NetworkStep (pairState ⟨sampleServer, sampleServer, none, [], []⟩
        ⟨sampleClient, sampleClient, some ⟨⟨4, sampleDescriptor⟩, 5000, []⟩, [], []⟩ []) _ :=
      .progress false ⟨⟨4, sampleDescriptor⟩, 5000, []⟩ sampleSendTrace _ rfl sampleSend_run
    rw [pairState_update_client] at hprogress
    have hfinish : NetworkStep (pairState ⟨sampleServer, sampleServer, none, [], []⟩
        ⟨sampleClient, sampleClient, some ⟨⟨4, sampleDescriptor⟩, 5000, sampleSendTrace⟩, [], []⟩
        (sealings sampleSendTrace)) _ :=
      .finish false ⟨⟨4, sampleDescriptor⟩, 5000, sampleSendTrace⟩ _ rfl sampleSend_run
    rw [pairState_update_client] at hfinish
    have hreceive : NetworkStep (pairState ⟨sampleServer, sampleServer, none, [], []⟩
        ⟨.android (androidChannel samplePrimitives sampleSessionKey false 1 0), sampleClient, none,
          [⟨4, sampleDescriptor⟩], []⟩ (sealings sampleSendTrace)) _ :=
      .receive true 5000 sampleReceiveTrace _ _ sampleReceive_run sampleReceive_authentic
    rw [pairState_update_server] at hreceive
    exact (((Relation.ReflTransGen.single hbegin).tail hprogress).tail hfinish).tail hreceive

theorem accepted_prefix_descriptor :
    (sampleFinalState.parties true).accepted = [⟨4, sampleDescriptor⟩] ∧
      (sampleFinalState.parties true).accepted <+:
        (sampleFinalState.parties false).offered.map Frame.message :=
  have hprefix := accepted_prefix sampleFinalState_reachable true
  ⟨rfl, hprefix.1⟩

end Session

end Network

end OpenCam.Control
