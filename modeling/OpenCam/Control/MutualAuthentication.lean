import OpenCam.Android.Handshake
import OpenCam.Control.Agreement
import OpenCam.Interaction.System
import OpenCam.Linux.ClientHandshake

/-!
Mutual authentication. Any number of controllers and phones run their handshakes at once
over a network that answers every read as it likes. What is assumed of HMAC-SHA256 is that
it is computed correctly, that the secret's tags in one log do not collide, and that a
comparison with such a tag succeeds only when some run has computed the tag and put it on
the wire; nonces are drawn once.
-/

namespace OpenCam.Control

open Octets Interaction Crypto

/-- What a side takes from its handshake. -/
structure Agreement where
  serverNonce : Bytes
  clientNonce : Bytes
  sessionKey : Bytes
deriving DecidableEq

def Agreement.ofServer (handshake : Linux.Handshake) : Agreement :=
  ⟨handshake.serverNonce.val, handshake.clientNonce.val, handshake.sessionKey.val⟩

def Agreement.ofClient (handshake : Android.Handshake) : Agreement :=
  ⟨handshake.serverNonce, handshake.clientNonce.val, handshake.sessionKey⟩

/-- A controller takes a connection while its pairing code is valid. -/
inductive Role where
  | server (pairingExpires : Time)
  | client
deriving DecidableEq

structure Peer where
  secret : Block 32
  role : Role
deriving DecidableEq

/-- What one connection of a peer runs up to the end of the handshake. -/
def Peer.program (peer : Peer) : Program (Option Agreement) :=
  match peer.role with
  | .server pairingExpires => do
      let handshake ← Linux.authenticateClient peer.secret pairingExpires
      .ret (handshake.map Agreement.ofServer)
  | .client => do
      let result ← Android.authenticateAgreeing peer.secret.val
      .ret (some (Agreement.ofClient result.1))

section Assumptions

variable {ι : Type} [DecidableEq ι] (primitives : Primitives) (secret : Block 32)

/-- A tag was computed, and then put on the wire. -/
def ReleasedIn (mac : Mac) (trace : Trace) : Prop :=
  ∃ front event back, trace = front ++ event :: back ∧ mac ∈ macs front ∧
    mac.tag.val <:+: Action.written event

/-- Some run released the tag. -/
def Released (log : Log ι Op Op.Res) (mac : Mac) : Prop :=
  ∃ run, ReleasedIn mac (log.of run)

/-- The left side of a comparison that came out equal. -/
def Action.verified : Action → Option Bytes
  | ⟨.constantTimeEqual left _, equal⟩ => if equal.val then some left else none
  | _ => none

/-- One call of OpenSSL's HKDF. -/
structure Derivation where
  salt : Bytes
  key : Bytes
  info : Bytes
  derived : Block 32

def Action.derivation : Action → Option Derivation
  | ⟨.hkdfExtractAndExpand salt key info, some derived⟩ => some ⟨salt, key, info, derived⟩
  | _ => none

/-- The two have not drawn the same nonce. -/
def Action.DrawnApart (first second : Action) : Prop :=
  ∀ nonce ∈ first.drawn, nonce ∉ second.drawn

/-- If the two are equal tags of the secret, they are tags of the same data. -/
def Action.CollisionFree (first second : Action) : Prop :=
  ∀ mac ∈ first.mac, ∀ mac' ∈ second.mac, mac.key = secret.val → mac'.key = secret.val →
    mac.tag = mac'.tag → mac.data = mac'.data

/-- What the surroundings may answer one run after a log. Nothing is said of what arrives. -/
structure Permitted (log : Log ι Op Op.Res) (run : ι) (event : Action) : Prop where
  computed : ∀ mac ∈ event.mac, mac.tag = primitives.hmac mac.key mac.data
  derived : ∀ call ∈ event.derivation, call.derived = hkdfKey primitives.hmac
    (hkdfExtract primitives.hmac call.salt call.key).val call.info
  fresh : ∀ entry ∈ log, Action.DrawnApart entry.2 event
  collisionFree : ∀ entry ∈ log, Action.CollisionFree secret entry.2 event
  unforgeable : ∀ mac ∈ macs (log.of run), mac.key = secret.val →
    event.verified = some mac.tag.val → Released log mac

end Assumptions

section Decidability

variable {ι : Type} [DecidableEq ι]

theorem releasedIn_iff {mac : Mac} {events : Trace} :
    ReleasedIn mac events ↔ ∃ i < events.length, mac ∈ macs (events.take i) ∧
      ∃ event ∈ events[i]?, mac.tag.val <:+: Action.written event := by
  constructor
  · rintro ⟨front, event, back, rfl, hmac, htag⟩
    exact ⟨front.length, by simp, by simpa using hmac, event, by simp, htag⟩
  · rintro ⟨i, hi, hmac, event, hevent, htag⟩
    obtain ⟨hi, rfl⟩ := List.getElem?_eq_some_iff.mp hevent
    exact ⟨events.take i, events[i], events.drop (i + 1), by simp, hmac, htag⟩

instance (mac : Mac) (trace : Trace) : Decidable (ReleasedIn mac trace) :=
  decidable_of_iff _ releasedIn_iff.symm

instance [Fintype ι] (log : Log ι Op Op.Res) (mac : Mac) : Decidable (Released log mac) :=
  inferInstanceAs (Decidable (∃ run, ReleasedIn mac (log.of run)))

instance (first second : Action) : Decidable (first.DrawnApart second) :=
  inferInstanceAs (Decidable (∀ nonce ∈ first.drawn, nonce ∉ second.drawn))

instance (secret : Block 32) (first second : Action) :
    Decidable (Action.CollisionFree secret first second) :=
  inferInstanceAs (Decidable (∀ mac ∈ first.mac, ∀ mac' ∈ second.mac, mac.key = secret.val →
    mac'.key = secret.val → mac.tag = mac'.tag → mac.data = mac'.data))

theorem permitted_iff {primitives : Primitives} {secret : Block 32} {log : Log ι Op Op.Res}
    {run : ι} {event : Action} :
    Permitted primitives secret log run event ↔
      (∀ mac ∈ event.mac, mac.tag = primitives.hmac mac.key mac.data) ∧
      (∀ call ∈ event.derivation, call.derived = hkdfKey primitives.hmac
        (hkdfExtract primitives.hmac call.salt call.key).val call.info) ∧
      (∀ entry ∈ log, Action.DrawnApart entry.2 event) ∧
      (∀ entry ∈ log, Action.CollisionFree secret entry.2 event) ∧
      ∀ mac ∈ macs (log.of run), mac.key = secret.val →
        event.verified = some mac.tag.val → Released log mac :=
  ⟨fun h => ⟨h.computed, h.derived, h.fresh, h.collisionFree, h.unforgeable⟩,
    fun ⟨h1, h2, h3, h4, h5⟩ => ⟨h1, h2, h3, h4, h5⟩⟩

instance [Fintype ι] (primitives : Primitives) (secret : Block 32) (log : Log ι Op Op.Res)
    (run : ι) (event : Action) : Decidable (Permitted primitives secret log run event) :=
  decidable_of_iff _ permitted_iff.symm

end Decidability

section Peers

variable {peer : Peer} {trace : Trace}

theorem Action.write_of_written {event : Action} (h : event.written ≠ []) :
    ∃ timeoutMs deadline, event = ⟨.writeAll event.written timeoutMs deadline, true⟩ := by
  obtain ⟨op, res⟩ := event
  cases op with
  | writeAll bytes timeoutMs deadline =>
      cases res with
      | false => exact absurd rfl h
      | true => exact ⟨timeoutMs, deadline, rfl⟩
  | _ => exact absurd rfl h

/-- The run of a peer in which a tag is released: the phone's proof for a nonce that it has
received, or the controller's as its last act. -/
theorem Peer.releases {front back : Trace} {event : Action} {stop : Program (Option Agreement)}
    {mac : Mac} (run : Runs peer.program (front ++ event :: back) stop) (hmac : mac ∈ macs front)
    (htag : mac.tag.val <:+: event.written) :
    mac.key = peer.secret.val ∧
      ((peer.role = .client ∧ ∃ (serverNonce : Bytes) (clientNonce : Block 32),
          serverNonce.length = 32 ∧
          mac.data = Android.clientProofData serverNonce clientNonce.val ∧
          Android.Sent peer.secret.val serverNonce clientNonce (front ++ [event])) ∨
        ∃ (pairingExpires : Time) (handshake : Linux.Handshake) (clientProof : Block 32),
          peer.role = .server pairingExpires ∧
          macs front = [
            ⟨peer.secret.val,
              Linux.clientProofData handshake.serverNonce handshake.clientNonce, clientProof⟩,
            ⟨peer.secret.val,
              Linux.serverProofData handshake.serverNonce handshake.clientNonce, mac.tag⟩] ∧
          stop = .ret (some (.ofServer handshake))) := by
  have hlong : 32 ≤ event.written.length := mac.tag.property.symm.le.trans htag.length_le
  obtain ⟨timeoutMs, deadline, hevent⟩ := event.write_of_written
    (List.ne_nil_of_length_pos (by omega))
  obtain ⟨bytes, hbytes⟩ : ∃ bytes, event.written = bytes := ⟨_, rfl⟩
  rw [hbytes] at hevent htag hlong
  subst hevent
  obtain ⟨middle, hfront, hrest⟩ := runs_append_iff.mp run
  obtain ⟨next, rfl, hback⟩ := runs_cons_iff.mp hrest
  obtain ⟨secret, role⟩ := peer
  cases role with
  | client =>
      obtain ⟨first, hfirst, -⟩ := hfront.stands_left
        (fun _ => trivial) (show ¬ Op.Silent _ from id)
      obtain ⟨serverNonce, clientNonce, proof, -, hlength, hmacs, hsent⟩ :=
        Android.authenticateAgreeing_stands hfirst hlong
      rw [hmacs, List.mem_singleton] at hmac
      subst hmac
      exact ⟨rfl, Or.inl ⟨rfl, serverNonce, clientNonce, hlength, rfl, hsent⟩⟩
  | server pairingExpires =>
      obtain ⟨first, hfirst, rfl⟩ := hfront.stands_left
        (fun _ => trivial) (show ¬ Op.Silent _ from id)
      rcases Linux.authenticateClient_stands hfirst hlong with hnone |
        ⟨serverNonce, clientNonce, clientProof, serverProof, sessionKey, rfl, hmacs, hlast⟩
      · rw [hnone] at hmac
        cases hmac
      have hsame : serverProof = mac.tag :=
        (Subtype.ext (htag.eq_of_length (by rw [mac.tag.property, serverProof.property]))).symm
      subst hsame
      refine ⟨?_, Or.inr ⟨pairingExpires, ⟨serverNonce, clientNonce, sessionKey⟩, clientProof, rfl,
        hmacs, ?_⟩⟩
      · rw [hmacs] at hmac
        simp only [List.mem_cons, List.not_mem_nil, or_false] at hmac
        rcases hmac with hmac | hmac <;> exact congrArg Mac.key hmac
      · dsimp only at hback
        rw [hlast] at hback
        exact (runs_ret_iff.mp hback).2

theorem clientProofData_inj {serverNonce serverNonce' : Bytes} {clientNonce clientNonce' : Block 32}
    (hlength : serverNonce.length = serverNonce'.length)
    (h : Android.clientProofData serverNonce clientNonce.val =
      Android.clientProofData serverNonce' clientNonce'.val) :
    serverNonce = serverNonce' ∧ clientNonce = clientNonce' := by
  unfold Android.clientProofData at h
  rw [List.append_assoc, List.append_assoc] at h
  obtain ⟨hserver, hclient⟩ := List.append_inj (List.append_cancel_left h) hlength
  exact ⟨hserver, Subtype.ext hclient⟩

theorem serverProofData_inj {serverNonce serverNonce' : Bytes} {clientNonce clientNonce' : Block 32}
    (hlength : serverNonce.length = serverNonce'.length)
    (h : Android.serverProofData serverNonce clientNonce.val =
      Android.serverProofData serverNonce' clientNonce'.val) :
    serverNonce = serverNonce' ∧ clientNonce = clientNonce' := by
  unfold Android.serverProofData at h
  rw [List.append_assoc, List.append_assoc] at h
  obtain ⟨hserver, hclient⟩ := List.append_inj (List.append_cancel_left h) hlength
  exact ⟨hserver, Subtype.ext hclient⟩

/-- No proof of one side is a proof of the other. -/
theorem proofData_ne (serverNonce clientNonce serverNonce' clientNonce' : Bytes) :
    Android.clientProofData serverNonce clientNonce ≠
      Android.serverProofData serverNonce' clientNonce' := by
  intro h
  unfold Android.clientProofData Android.serverProofData at h
  rw [List.append_assoc, List.append_assoc] at h
  have hlength : Android.CLIENT_PROOF_DOMAIN.length = Android.SERVER_PROOF_DOMAIN.length := by
    decide
  have hdomain : Android.CLIENT_PROOF_DOMAIN ≠ Android.SERVER_PROOF_DOMAIN := by decide
  exact hdomain (List.append_inj_left h hlength)

end Peers

section Runs

variable {ι : Type} [DecidableEq ι] {primitives : Primitives} {secret : Block 32}
  {peers : ι → Peer} {state : SystemState Op Op.Res fun _ : ι => Option Agreement}

/-- The states that the handshakes of these peers reach. -/
abbrev HandshakesReach (primitives : Primitives) (secret : Block 32) (peers : ι → Peer)
    (state : SystemState Op Op.Res fun _ : ι => Option Agreement) : Prop :=
  SystemReachable (fun run => (peers run).program) (Permitted primitives secret) state

instance : Std.Symm Action.DrawnApart :=
  ⟨fun _ _ h nonce hleft hright => h nonce hright hleft⟩

instance : Std.Symm (Action.CollisionFree secret) :=
  ⟨fun _ _ h mac hmac mac' hmac' hkey hkey' htag =>
    (h mac' hmac' mac hmac hkey' hkey htag.symm).symm⟩

/-- No two runs draw the same nonce. -/
theorem HandshakesReach.drawn_unique (reachable : HandshakesReach primitives secret peers state)
    {first second : ι} {event event' : Action} {nonce : Block 32}
    (hfirst : event ∈ state.log.of first) (hsecond : event' ∈ state.log.of second)
    (hdrawn : nonce ∈ event.drawn) (hdrawn' : nonce ∈ event'.drawn) : first = second := by
  by_contra hruns
  have hapart := reachable.respects Action.DrawnApart
    (fun log run event hallowed => hallowed.fresh) hfirst hsecond
    (fun h => hruns (congrArg Prod.fst h))
  exact hapart nonce hdrawn hdrawn'

/-- Tags of the secret that are equal are tags of the same data. -/
theorem HandshakesReach.data_unique (reachable : HandshakesReach primitives secret peers state)
    {first second : ι} {mac mac' : Mac} (hfirst : mac ∈ macs (state.log.of first))
    (hsecond : mac' ∈ macs (state.log.of second)) (hkey : mac.key = secret.val)
    (hkey' : mac'.key = secret.val) (htag : mac.tag = mac'.tag) : mac.data = mac'.data := by
  by_contra hdata
  have hfree := reachable.respects (Action.CollisionFree secret)
    (fun log run event hallowed => hallowed.collisionFree) (mem_macs.mp hfirst)
    (mem_macs.mp hsecond) (fun h => hdata (by
      have hevents := congrArg (fun entry : ι × Action => Action.mac entry.2) h
      exact congrArg Mac.data (Option.some.inj hevents)))
  exact hdata (hfree mac rfl mac' rfl hkey hkey' htag)

/-- A comparison of a run that came out equal, with a tag of the secret that the run computed
before: somewhere the tag was released. -/
theorem HandshakesReach.released (reachable : HandshakesReach primitives secret peers state)
    {run : ι} {front back : Trace} {event : Action} {mac : Mac}
    (hrun : state.log.of run = front ++ event :: back) (hmac : mac ∈ macs front)
    (hkey : mac.key = secret.val) (hverified : event.verified = some mac.tag.val) :
    ∃ other before write after, state.log.of other = before ++ write :: after ∧
      mac ∈ macs before ∧ mac.tag.val <:+: Action.written write := by
  obtain ⟨earlier, later, hlog, hearlier⟩ := Log.of_split hrun
  obtain ⟨other, before, write, after, hother, hbefore, htag⟩ :=
    (reachable.allowed hlog).unforgeable mac (by rwa [hearlier]) hkey hverified
  refine ⟨other, before, write, after ++ Log.of ((run, event) :: later) other, ?_, hbefore, htag⟩
  rw [hlog, Log.of_append, hother, List.append_assoc, List.cons_append]

/-- Whose proof it was that a run found equal to its own. -/
theorem HandshakesReach.source (reachable : HandshakesReach primitives secret peers state)
    {run : ι} {front back : Trace} {event : Action} {mac : Mac}
    (hrun : state.log.of run = front ++ event :: back) (hmac : mac ∈ macs front)
    (hkey : mac.key = secret.val) (hverified : event.verified = some mac.tag.val) :
    (∃ client serverNonce clientNonce sent rest, peers client = ⟨secret, .client⟩ ∧
        serverNonce.length = 32 ∧
        mac.data = Android.clientProofData serverNonce clientNonce.val ∧
        state.log.of client = sent ++ rest ∧
        Android.Sent secret.val serverNonce clientNonce sent) ∨
      ∃ server pairingExpires handshake, peers server = ⟨secret, .server pairingExpires⟩ ∧
        mac.data = Linux.serverProofData handshake.serverNonce handshake.clientNonce ∧
        state.remaining server = .ret (some (.ofServer handshake)) := by
  obtain ⟨other, before, write, after, hother, hbefore, htag⟩ :=
    reachable.released hrun hmac hkey hverified
  have hruns := reachable.runs other
  rw [hother] at hruns
  obtain ⟨hpeer, hrelease⟩ := Peer.releases hruns hbefore htag
  have hsecret : (peers other).secret = secret := Subtype.ext (hpeer.symm.trans hkey)
  have hwhole : ∀ role, (peers other).role = role → peers other = ⟨secret, role⟩ :=
    fun role hrole => by rw [← hsecret, ← hrole]
  rcases hrelease with ⟨hrole, serverNonce, clientNonce, hlength, hdata, hsent⟩ |
    ⟨pairingExpires, handshake, clientProof, hrole, hmacs, hstop⟩
  · rw [hsecret] at hsent
    exact Or.inl ⟨other, serverNonce, clientNonce, before ++ [write], after, hwhole _ hrole,
      hlength, hdata, by rw [hother, List.append_assoc, List.singleton_append], hsent⟩
  · refine Or.inr ⟨other, pairingExpires, handshake, hwhole _ hrole, ?_, hstop⟩
    rw [hmacs, List.mem_cons, List.mem_singleton] at hbefore
    rcases hbefore with hfirst | hsecond
    · -- The client's proof would have the tag of the controller's own.
      have hmem : ∀ mac ∈ macs before, mac ∈ macs (state.log.of other) := by
        intro mac hmac
        rw [hother, macs_append]
        exact List.mem_append_left _ hmac
      rw [hmacs] at hmem
      have hsame := reachable.data_unique (hmem _ (List.mem_cons_self ..))
        (hmem _ (List.mem_cons_of_mem _ (List.mem_singleton_self _)))
        (congrArg Subtype.val hsecret) (congrArg Subtype.val hsecret)
        (congrArg Mac.tag hfirst).symm
      exact absurd hsame (proofData_ne _ _ _ _)
    · exact congrArg Mac.data hsecond

/-- The key that both sides derive from the secret and the nonces. -/
def Agreed (primitives : Primitives) (secret : Block 32) (agreed : Agreement) : Prop :=
  ∃ serverNonce clientNonce sessionKey : Block 32,
    agreed = ⟨serverNonce.val, clientNonce.val, sessionKey.val⟩ ∧
    (Linux.deriveSessionKey secret serverNonce clientNonce).Evaluates
      (standardAnswer primitives 0) ⟨[], []⟩ (some sessionKey) ⟨[], []⟩

theorem Agreed.unique {first second : Agreement} (hfirst : Agreed primitives secret first)
    (hsecond : Agreed primitives secret second)
    (hserver : first.serverNonce = second.serverNonce)
    (hclient : first.clientNonce = second.clientNonce) : first = second := by
  obtain ⟨serverNonce, clientNonce, sessionKey, rfl, heval⟩ := hfirst
  obtain ⟨serverNonce', clientNonce', sessionKey', rfl, heval'⟩ := hsecond
  obtain rfl : serverNonce = serverNonce' := Subtype.ext hserver
  obtain rfl : clientNonce = clientNonce' := Subtype.ext hclient
  obtain ⟨hkey, -⟩ := heval.unique heval'
  cases hkey
  rfl

/-- What is in a run's part of the log was computed as the standard says. -/
theorem HandshakesReach.computed (reachable : HandshakesReach primitives secret peers state)
    {run : ι} {event : Action} (hmem : event ∈ state.log.of run) :
    (∀ mac ∈ event.mac, mac.tag = primitives.hmac mac.key mac.data) ∧
      ∀ call ∈ event.derivation, call.derived = hkdfKey primitives.hmac
        (hkdfExtract primitives.hmac call.salt call.key).val call.info := by
  obtain ⟨front, back, hrun⟩ := List.append_of_mem hmem
  obtain ⟨before, after, hlog, -⟩ := Log.of_split hrun
  exact ⟨(reachable.allowed hlog).computed, (reachable.allowed hlog).derived⟩

theorem HandshakesReach.server_returns (reachable : HandshakesReach primitives secret peers state)
    {server : ι} {pairingExpires : Time} {agreed : Agreement}
    (hserver : peers server = ⟨secret, .server pairingExpires⟩)
    (hreturned : state.remaining server = .ret (some agreed)) :
    ∃ handshake, agreed = .ofServer handshake ∧
      Linux.Authenticated secret pairingExpires handshake (state.log.of server) ∧
      Agreed primitives secret agreed := by
  have hruns := reachable.runs server
  rw [hserver, hreturned] at hruns
  obtain ⟨result, front, back, hlog, hfront, hback⟩ := returns_bind_iff.mp hruns
  obtain ⟨rfl, hresult⟩ := runs_ret_iff.mp hback
  rw [List.append_nil] at hlog
  cases result with
  | none => cases hresult
  | some handshake =>
      cases hresult
      have hshaken := Linux.authenticateClient_returns hfront
      refine ⟨handshake, rfl, hlog ▸ hshaken, handshake.serverNonce, handshake.clientNonce,
        handshake.sessionKey, rfl, ?_⟩
      obtain ⟨verified, proved, now, rfl, -, -, proof, reply, rfl, -, -⟩ := hshaken
      have hevent : (⟨.hkdfExtractAndExpand
          (handshake.serverNonce.val ++ handshake.clientNonce.val) secret.val
          (cString Linux.SESSION_KDF_INFO), some handshake.sessionKey⟩ : Action) ∈
          state.log.of server := by
        rw [hlog]
        simp
      have hderived := (reachable.computed hevent).2 _ rfl
      refine Prog.evaluates_perform ?_
      rw [show handshake.sessionKey = _ from hderived]
      rfl

theorem HandshakesReach.client_returns (reachable : HandshakesReach primitives secret peers state)
    {client : ι} {agreed : Agreement} (hclient : peers client = ⟨secret, .client⟩)
    (hreturned : state.remaining client = .ret (some agreed)) :
    ∃ handshake sent accepted rest, agreed = .ofClient handshake ∧
      state.log.of client = sent ++ (accepted ++ rest) ∧
      Android.Sent secret.val handshake.serverNonce handshake.clientNonce sent ∧
      Android.Accepted secret.val handshake accepted ∧ handshake.serverNonce.length = 32 ∧
      Agreed primitives secret agreed := by
  have hruns := reachable.runs client
  rw [hclient, hreturned] at hruns
  obtain ⟨result, front, back, hlog, hfront, hback⟩ := returns_bind_iff.mp hruns
  obtain ⟨rfl, hresult⟩ := runs_ret_iff.mp hback
  cases hresult
  rw [List.append_nil] at hlog
  obtain ⟨handshake, channel⟩ := result
  obtain ⟨sent, accepted, rest, rfl, hsent, haccepted, -, hlength⟩ :=
    Android.authenticateAgreeing_returns hfront
  refine ⟨handshake, sent, accepted, rest, rfl, hlog, hsent, haccepted, hlength, ?_⟩
  obtain ⟨serverNonce, clientNonce, sessionKey⟩ := handshake
  obtain ⟨response, derivation, proof, serverProof, equal, rfl, -, -, -, hderivation⟩ := haccepted
  obtain ⟨value, hagrees⟩ : BothCompute primitives 0 _ _ :=
    sessionKey_agrees secret ⟨serverNonce, hlength⟩ clientNonce
  have hevaluates : (Android.deriveSessionKey secret.val serverNonce clientNonce.val).Evaluates
      (standardAnswer primitives 0) ⟨[], []⟩ sessionKey ⟨[], []⟩ := by
    refine hderivation.evaluates fun event hmem => ?_
    obtain ⟨mac, rfl⟩ := Android.deriveSessionKey_allMacs hderivation event hmem
    have hevent : (⟨.hmac mac.key mac.data, some mac.tag⟩ : Action) ∈ state.log.of client := by
      rw [hlog]
      simp [hmem]
    have htag := (reachable.computed hevent).1 mac rfl
    rw [htag]
    rfl
  obtain ⟨hkey, -⟩ := hevaluates.unique (hagrees ⟨[], []⟩).2
  exact ⟨⟨serverNonce, hlength⟩, clientNonce, value, by rw [Agreement.ofClient, hkey],
    (hagrees ⟨[], []⟩).1⟩

/-- What the handshakes under one secret establish, whatever else runs beside them. -/
structure MutuallyAuthentic (peers : ι → Peer) (secret : Block 32)
    (state : SystemState Op Op.Res fun _ : ι => Option Agreement) : Prop where
  /-- A controller that has authenticated its client: a phone received its nonce and sent the
  proof for both nonces, and if that phone has returned, it holds the same agreement. -/
  clientSent : ∀ server pairingExpires agreed, peers server = ⟨secret, .server pairingExpires⟩ →
    state.remaining server = .ret (some agreed) →
    ∃ client clientNonce sent rest, peers client = ⟨secret, .client⟩ ∧
      agreed.clientNonce = clientNonce.val ∧ state.log.of client = sent ++ rest ∧
      Android.Sent secret.val agreed.serverNonce clientNonce sent ∧
      ∀ other, state.remaining client = .ret (some other) → other = agreed
  /-- A phone that has returned a channel: a controller with the same agreement verified the
  phone's proof and sent its own. -/
  serverVerified : ∀ client agreed, peers client = ⟨secret, .client⟩ →
    state.remaining client = .ret (some agreed) →
    ∃ server pairingExpires handshake, peers server = ⟨secret, .server pairingExpires⟩ ∧
      agreed = .ofServer handshake ∧ state.remaining server = .ret (some agreed) ∧
      Linux.Authenticated secret pairingExpires handshake (state.log.of server)
  sameKey : ∀ first second agreed agreed', (peers first).secret = secret →
    (peers second).secret = secret → state.remaining first = .ret (some agreed) →
    state.remaining second = .ret (some agreed') → agreed.serverNonce = agreed'.serverNonce →
    agreed.clientNonce = agreed'.clientNonce → agreed.sessionKey = agreed'.sessionKey
  distinct : ∀ first second agreed agreed', (peers first).secret = secret →
    (peers second).secret = secret →
    ((peers first).role = .client ↔ (peers second).role = .client) →
    state.remaining first = .ret (some agreed) → state.remaining second = .ret (some agreed') →
    agreed.serverNonce = agreed'.serverNonce → agreed.clientNonce = agreed'.clientNonce →
    first = second

theorem HandshakesReach.clientSent (reachable : HandshakesReach primitives secret peers state)
    {server : ι} {pairingExpires : Time} {agreed : Agreement}
    (hserver : peers server = ⟨secret, .server pairingExpires⟩)
    (hreturned : state.remaining server = .ret (some agreed)) :
    ∃ client clientNonce sent rest, peers client = ⟨secret, .client⟩ ∧
      agreed.clientNonce = clientNonce.val ∧ state.log.of client = sent ++ rest ∧
      Android.Sent secret.val agreed.serverNonce clientNonce sent ∧
      ∀ other, state.remaining client = .ret (some other) → other = agreed := by
  obtain ⟨handshake, rfl, hshaken, hagreed⟩ := reachable.server_returns hserver hreturned
  obtain ⟨verified, proved, now, hlog, ⟨hello, auth, proof, clientProof, equal, rfl, -, -, -, -,
    hproof⟩, -⟩ := hshaken
  have hrun : state.log.of server =
      (⟨.randBytes, some handshake.serverNonce⟩ :: (hello ++ (auth ++
        [⟨.hmac secret.val (Linux.clientProofData handshake.serverNonce handshake.clientNonce),
          some proof⟩]))) ++
      ⟨.constantTimeEqual proof.val clientProof, equal⟩ :: ⟨.now, now⟩ :: proved := by
    rw [hlog]
    simp
  have hmac : (⟨secret.val, Linux.clientProofData handshake.serverNonce handshake.clientNonce,
      proof⟩ : Mac) ∈ macs (⟨.randBytes, some handshake.serverNonce⟩ :: (hello ++ (auth ++
        [⟨.hmac secret.val (Linux.clientProofData handshake.serverNonce handshake.clientNonce),
          some proof⟩]))) :=
    mem_macs.mpr (by simp)
  rcases reachable.source hrun hmac rfl (if_pos (equal.property.mpr hproof.symm)) with
    ⟨client, serverNonce, clientNonce, sent, rest, hclient, hlength, hdata, hclientLog, hsent⟩ |
    ⟨_, _, _, _, hdata, _⟩
  · obtain ⟨rfl, hnonce⟩ := clientProofData_inj
      (hlength.trans handshake.serverNonce.property.symm) hdata.symm
    subst hnonce
    refine ⟨client, handshake.clientNonce, sent, rest, hclient, rfl, hclientLog, hsent, ?_⟩
    intro other hother
    obtain ⟨handshake', sent', accepted, last, rfl, hlog', hsent', -, hlength', hagreed'⟩ :=
      reachable.client_returns hclient hother
    obtain ⟨proof', hfirst⟩ := hsent.macs_eq
    obtain ⟨proof'', hsecond⟩ := hsent'.macs_eq
    have hmacs := congrArg macs (hclientLog.symm.trans hlog')
    rw [macs_append, macs_append, hfirst, hsecond] at hmacs
    obtain ⟨hserverNonce, hclientNonce⟩ := clientProofData_inj (hlength.trans hlength'.symm)
      (congrArg Mac.data (List.cons.inj hmacs).1)
    exact hagreed'.unique hagreed hserverNonce.symm (congrArg Subtype.val hclientNonce).symm
  · exact absurd hdata (proofData_ne _ _ _ _)

theorem HandshakesReach.serverVerified (reachable : HandshakesReach primitives secret peers state)
    {client : ι} {agreed : Agreement} (hclient : peers client = ⟨secret, .client⟩)
    (hreturned : state.remaining client = .ret (some agreed)) :
    ∃ server pairingExpires handshake, peers server = ⟨secret, .server pairingExpires⟩ ∧
      agreed = .ofServer handshake ∧ state.remaining server = .ret (some agreed) ∧
      Linux.Authenticated secret pairingExpires handshake (state.log.of server) := by
  obtain ⟨handshake, sent, accepted, rest, rfl, hlog, -, haccepted, hlength, hagreed⟩ :=
    reachable.client_returns hclient hreturned
  obtain ⟨response, derivation, proof, serverProof, equal, rfl, -, -, hequal, -⟩ := haccepted
  have hrun : state.log.of client =
      (sent ++ (response ++ [⟨.hmac secret.val (Android.serverProofData handshake.serverNonce
        handshake.clientNonce.val), some proof⟩])) ++
      ⟨.constantTimeEqual proof.val serverProof, equal⟩ :: (derivation ++ rest) := by
    rw [hlog]
    simp
  have hmac : (⟨secret.val, Android.serverProofData handshake.serverNonce
      handshake.clientNonce.val, proof⟩ : Mac) ∈
      macs (sent ++ (response ++ [⟨.hmac secret.val (Android.serverProofData
        handshake.serverNonce handshake.clientNonce.val), some proof⟩])) :=
    mem_macs.mpr (by simp)
  rcases reachable.source hrun hmac rfl (if_pos hequal) with
    ⟨_, _, _, _, _, _, _, hdata, _⟩ | ⟨server, pairingExpires, handshake', hserver, hdata, hstop⟩
  · exact absurd hdata.symm (proofData_ne _ _ _ _)
  · obtain ⟨handshake'', hsame, hshaken, hagreed'⟩ := reachable.server_returns hserver hstop
    obtain ⟨hserverNonce, hclientNonce⟩ := serverProofData_inj
      (hlength.trans handshake'.serverNonce.property.symm) hdata
    have hwhole : Agreement.ofClient handshake = .ofServer handshake' :=
      hagreed.unique hagreed' hserverNonce (congrArg Subtype.val hclientNonce)
    rw [hwhole]
    exact ⟨server, pairingExpires, handshake'', hserver, hsame, hstop, hshaken⟩

/-- A returned run has drawn its side's nonce. -/
theorem HandshakesReach.returns (reachable : HandshakesReach primitives secret peers state)
    {run : ι} {agreed : Agreement} (hsecret : (peers run).secret = secret)
    (hreturned : state.remaining run = .ret (some agreed)) :
    Agreed primitives secret agreed ∧
      ∃ (event : Action) (nonce : Block 32), event ∈ state.log.of run ∧ nonce ∈ event.drawn ∧
        ((peers run).role = .client ∧ nonce.val = agreed.clientNonce ∨
          (peers run).role ≠ .client ∧ nonce.val = agreed.serverNonce) := by
  obtain ⟨role, hpeer⟩ : ∃ role, peers run = ⟨secret, role⟩ := ⟨_, by rw [← hsecret]⟩
  cases role with
  | client =>
      obtain ⟨handshake, sent, accepted, rest, rfl, hlog, ⟨hello, reply, proof, rfl, -⟩, -, -,
        hagreed⟩ := reachable.client_returns hpeer hreturned
      refine ⟨hagreed, ⟨.secureRandom, handshake.clientNonce⟩, handshake.clientNonce, ?_, rfl,
        Or.inl ⟨by rw [hpeer], rfl⟩⟩
      rw [hlog]
      simp
  | server pairingExpires =>
      obtain ⟨handshake, rfl, ⟨verified, proved, now, hlog, ⟨hello, auth, proof, clientProof, equal,
        rfl, -⟩, -⟩, hagreed⟩ := reachable.server_returns hpeer hreturned
      refine ⟨hagreed, ⟨.randBytes, some handshake.serverNonce⟩, handshake.serverNonce, ?_, rfl,
        Or.inr ⟨by rw [hpeer]; simp, rfl⟩⟩
      rw [hlog]
      simp

/-- In every state that any number of handshakes reaches, the two sides under the secret have
authenticated each other. -/
theorem mutualAuthentication (reachable : HandshakesReach primitives secret peers state) :
    MutuallyAuthentic peers secret state where
  clientSent _ _ _ := reachable.clientSent
  serverVerified _ _ := reachable.serverVerified
  sameKey first second agreed agreed' hfirst hsecond hreturned hreturned' hserver hclient := by
    obtain ⟨hagreed, -⟩ := reachable.returns hfirst hreturned
    obtain ⟨hagreed', -⟩ := reachable.returns hsecond hreturned'
    rw [hagreed.unique hagreed' hserver hclient]
  distinct first second agreed agreed' hfirst hsecond hroles hreturned hreturned' hserver
      hclient := by
    obtain ⟨-, event, nonce, hevent, hdrawn, hside⟩ := reachable.returns hfirst hreturned
    obtain ⟨-, event', nonce', hevent', hdrawn', hside'⟩ := reachable.returns hsecond hreturned'
    have hnonces : nonce = nonce' := by
      apply Subtype.ext
      rcases hside with ⟨hrole, hnonce⟩ | ⟨hrole, hnonce⟩ <;>
        rcases hside' with ⟨hrole', hnonce'⟩ | ⟨hrole', hnonce'⟩
      · rw [hnonce, hnonce', hclient]
      · exact absurd (hroles.mp hrole) hrole'
      · exact absurd (hroles.mpr hrole') hrole
      · rw [hnonce, hnonce', hserver]
    subst hnonces
    exact reachable.drawn_unique hevent hevent' hdrawn hdrawn'

end Runs

section Sample

/-- The surroundings of the sample session, in which both sides draw its nonces. -/
def sampleSurroundings : (op : Op) → Wire → Option (op.Res × Wire)
  | .randBytes, wire => some (some sampleServerNonce, wire)
  | .secureRandom, wire => some (sampleClientNonce, wire)
  | op, wire => standardAnswer samplePrimitives 0 op wire

/-- A controller at `true` and a phone at `false`. -/
def samplePeers (server : Bool) : Peer :=
  ⟨sampleSecret, bif server then .server 1 else .client⟩

/-- Each side with what the other sends it. -/
def sampleExecution (server : Bool) : Execution Op Op.Res (Option Agreement) Wire :=
  (samplePeers server).program.execute sampleSurroundings
    ⟨bif server then
      encodeFrame ⟨Linux.CLIENT_AUTH, sampleClientNonce.val ++ sampleClientProof.val⟩
    else encodeFrame ⟨Linux.SERVER_HELLO, sampleServerNonce.val⟩ ++
      encodeFrame ⟨Linux.SERVER_AUTH, sampleServerProof.val⟩, []⟩

def sampleSteps (server : Bool) (first count : Nat) : Log Bool Op Op.Res :=
  (((sampleExecution server).trace.drop first).take count).map (Prod.mk server)

/-- The two sides in turn. -/
def sampleLog : Log Bool Op Op.Res :=
  sampleSteps true 0 4 ++ sampleSteps false 0 7 ++ sampleSteps true 4 20 ++ sampleSteps false 7 20

def sampleAgreement : Agreement :=
  ⟨sampleServerNonce.val, sampleClientNonce.val, sampleSessionKey.val⟩

def sampleState : SystemState Op Op.Res fun _ : Bool => Option Agreement :=
  ⟨fun server => (sampleExecution server).rest, sampleLog⟩

theorem sampleLog_permitted : ∀ i < sampleLog.length, ∀ entry ∈ sampleLog[i]?,
    Permitted samplePrimitives sampleSecret (sampleLog.take i) entry.1 entry.2 := by
  decide +kernel

theorem sampleLog_of (server : Bool) : sampleLog.of server = (sampleExecution server).trace := by
  cases server <;> rfl

theorem sampleState_reached :
    HandshakesReach samplePrimitives sampleSecret samplePeers sampleState := by
  refine systemReachable_of_runs (fun server => ?_) (fun front run event back hlog => ?_)
  · rw [sampleLog_of]
    exact Prog.execute_runs _ _ _
  · have hpermitted := sampleLog_permitted front.length (by rw [hlog]; simp) (run, event)
      (by rw [hlog]; simp)
    rw [hlog, List.take_left] at hpermitted
    exact hpermitted

/-- The phone and the controller of one session. -/
theorem mutualAuthentication_session :
    MutuallyAuthentic samplePeers sampleSecret sampleState ∧
      ∀ server, sampleState.remaining server = .ret (some sampleAgreement) :=
  ⟨mutualAuthentication sampleState_reached, by
    intro server
    cases server <;> rfl⟩

end Sample

end OpenCam.Control
