import OpenCam.Android.DeviceDescriptor
import OpenCam.Android.TCPConnection
import OpenCam.Control.Session

/-!
Behind the handshake the phone is two threads: one sends the descriptor, the other receives the
activation. However these and the controller interleave, the controller comes to start its
pipeline with the phone's own stream and password, and the phone has the controller's options.
-/

namespace OpenCam.Control

open Octets Interaction Crypto

section Actors

inductive Actor where
  | controller
  | sender
  | receiver
deriving DecidableEq, Repr

/-- The socket leads from the controller to the phone's receiver, and from its sender to the
controller. The receiver sends nothing. -/
def Actor.route : Actor → Actor
  | controller => receiver
  | sender => controller
  | receiver => sender

@[reducible] def ActorResult : Actor → Type
  | .controller => Bool
  | .sender => Android.AuthenticatedChannel
  | .receiver => Android.Frame × Android.AuthenticatedChannel

abbrev ExchangeState : Type := Processes (fun _ : Actor => Op) (fun _ => Op.Res) ActorResult UInt8

variable (primitives : Primitives) (controller phone : Surroundings)

def actorAnswers : Actor → Answer Op Op.Res UInt8
  | .controller => peerAnswer primitives controller
  | .sender => peerAnswer primitives phone
  | .receiver => peerAnswer primitives phone

def ExchangeStep : ExchangeState → ExchangeState → Prop :=
  ProcessStep (actorAnswers primitives controller phone) Actor.route

variable (inetPton : Bytes → Bool) (passes : Nat) (clientIp : Bytes) (sessionKey : Block 32)

/-- The phone's side `false` of a channel that nothing has passed yet. -/
def phoneChannel : Android.AuthenticatedChannel := androidChannel primitives sessionKey false 0 0

def exchangePrograms (descriptor : Bytes) : (actor : Actor) → Program (ActorResult actor)
  | .controller => Linux.runSession inetPton passes clientIp sessionKey
  | .sender => Android.TCPConnection.sendMessage (some (phoneChannel primitives sessionKey))
      Android.TYPE_DESCRIPTOR descriptor
  | .receiver => Android.TCPConnection.receivePass (phoneChannel primitives sessionKey) false

def exchangeStart (descriptor : Bytes) : ExchangeState where
  remaining := exchangePrograms primitives inetPton passes clientIp sessionKey descriptor
  unread _ := []

/-- The password under which the phone serves its stream. -/
def mediaPasswordOf : Bytes :=
  Linux.encodeHex (primitives.hmac sessionKey.val Linux.MEDIA_CREDENTIAL_DOMAIN).val

/-- The controller stands before the start of its pipeline. -/
def exchangeEndPrograms (rtspUrl : Bytes) : (actor : Actor) → Program (ActorResult actor)
  | .controller => Linux.runMedia passes
      ⟨Linux.authenticatedRtspUrl (mediaPasswordOf primitives sessionKey) rtspUrl,
        controller.device⟩
      (linuxChannel primitives sessionKey true 1 1)
  | .sender => .ret (androidChannel primitives sessionKey false 1 0)
  | .receiver => .ret (⟨Android.TYPE_ACTIVATION, Linux.buildActivationPacket {}⟩,
      androidChannel primitives sessionKey false 0 1)

def exchangeEnd (rtspUrl : Bytes) : ExchangeState where
  remaining := exchangeEndPrograms primitives controller passes sessionKey rtspUrl
  unread _ := []

end Actors

section Evaluation

variable {primitives : Primitives} {surroundings : Surroundings} {inetPton : Bytes → Bool}
  {sessionKey : Block 32} {rest outgoing : Bytes}

theorem findOpenCamDevice_queued : (peerAnswer primitives surroundings).queued .findOpenCamDevice
    (rest, outgoing) = some (surroundings.device, (rest, outgoing)) := by
  simp [Answer.queued, peerAnswer]

theorem waitForRtsp_queued (url : Bytes) : (peerAnswer primitives surroundings).queued
    (.waitForRtsp url) (rest, outgoing) = some (true, (rest, outgoing)) := by
  simp [Answer.queued, peerAnswer]

theorem mediaPassword_evaluates : (Linux.deriveMediaPassword sessionKey).Evaluates
    (peerAnswer primitives surroundings).queued (rest, outgoing)
    (mediaPasswordOf primitives sessionKey) (rest, outgoing) := by
  have hpassword : (Linux.deriveMediaPassword sessionKey).Evaluates
      (standardAnswer primitives surroundings.clock) ⟨rest, outgoing⟩
      (mediaPasswordOf primitives sessionKey) ⟨rest, outgoing⟩ :=
    Prog.evaluates_perform_bind rfl (Prog.evaluates_ret _ _)
  exact evaluates_between hpassword

theorem encodeHex_length (data : Bytes) : (Linux.encodeHex data).length = 2 * data.length := by
  induction data with
  | nil => rfl
  | cons byte data ih =>
      rw [Linux.encodeHex, List.flatMap_cons, List.length_append, ← Linux.encodeHex, ih,
        List.length_cons, List.length_cons, List.length_cons, List.length_nil]
      omega

theorem mediaPasswordOf_length : (mediaPasswordOf primitives sessionKey).length = 64 := by
  rw [mediaPasswordOf, encodeHex_length, (primitives.hmac _ _).property]

/-- The bytes of the phone's descriptor. -/
def descriptorBytes (primitives : Primitives) (sessionKey : Block 32) (descriptor : Bytes) : Bytes :=
  messageBytes primitives sessionKey false 0 Linux.DESCRIPTOR descriptor

def activationBytes (primitives : Primitives) (sessionKey : Block 32) : Bytes :=
  messageBytes primitives sessionKey true 0 Linux.ACTIVATION (Linux.buildActivationPacket {})

theorem sendDescriptor_evaluates {descriptor : Bytes} (hsize : descriptor.length + 24 ≤ 65536) :
    (Android.TCPConnection.sendMessage (some (phoneChannel primitives sessionKey))
        Android.TYPE_DESCRIPTOR descriptor).Evaluates
      (peerAnswer primitives surroundings).queued (rest, outgoing)
      (androidChannel primitives sessionKey false 1 0)
      (rest, outgoing ++ descriptorBytes primitives sessionKey descriptor) := by
  have hfits : (descriptor.length : Int) ≤ Android.MAX_PAYLOAD := by
    rw [Android.MAX_PAYLOAD]
    omega
  have hsend := @androidChannel_send primitives surroundings.clock sessionKey 0 0
    Linux.DESCRIPTOR descriptor false (by norm_num) (by norm_num) hsize ⟨rest, outgoing⟩
  exact (Android.require_evaluates (decide_eq_true hfits) _).bind (evaluates_between hsend)

theorem acceptDescriptor_evaluates {clientIp descriptor : Bytes} {parsed : Linux.DeviceDescriptor}
    (hsize : descriptor.length + 24 ≤ 65536)
    (hparsed : Linux.parseDeviceDescriptor descriptor = .ok parsed)
    (hallowed : Linux.isAllowedRtspEndpoint inetPton parsed.rtspUrl clientIp = true) :
    (Linux.acceptDescriptor inetPton clientIp (linuxChannel primitives sessionKey true 0 0)).Evaluates
      (peerAnswer primitives surroundings).queued
      (descriptorBytes primitives sessionKey descriptor ++ rest, outgoing)
      (some (parsed, linuxChannel primitives sessionKey true 0 1)) (rest, outgoing) := by
  have hreceive := @linuxChannel_receive primitives surroundings.clock sessionKey 0 0
    Linux.DESCRIPTOR descriptor false (by norm_num) hsize Linux.DESCRIPTOR_TIMEOUT_MS rest outgoing
  refine (evaluates_between hreceive).bind ?_
  dsimp only
  rw [if_neg (not_not.mpr rfl), hparsed]
  dsimp only
  rw [if_pos hallowed]
  exact Prog.evaluates_ret _ _

theorem activateMedia_evaluates {parsed : Linux.DeviceDescriptor}
    (hdevice : surroundings.device ≠ []) :
    (Linux.activateMedia sessionKey parsed (linuxChannel primitives sessionKey true 0 1)).Evaluates
      (peerAnswer primitives surroundings).queued (rest, outgoing)
      (some (⟨Linux.authenticatedRtspUrl (mediaPasswordOf primitives sessionKey) parsed.rtspUrl,
        surroundings.device⟩, linuxChannel primitives sessionKey true 1 1))
      (rest, outgoing ++ activationBytes primitives sessionKey) := by
  refine mediaPassword_evaluates.bind ?_
  rw [if_neg (not_not.mpr mediaPasswordOf_length)]
  have hnonempty : surroundings.device.isEmpty = false := by
    rwa [List.isEmpty_eq_false_iff]
  refine Prog.evaluates_perform_bind findOpenCamDevice_queued ?_
  rw [hnonempty, if_neg Bool.false_ne_true]
  have hsend := @linuxChannel_send primitives surroundings.clock sessionKey 0 1
    Linux.ACTIVATION (Linux.buildActivationPacket {}) true (by norm_num) (by decide)
    Linux.HANDSHAKE_TIMEOUT_MS ⟨rest, outgoing⟩
  refine (evaluates_between hsend).bind ?_
  exact Prog.evaluates_perform_bind (waitForRtsp_queued _) (Prog.evaluates_ret _ _)

theorem receiveActivation_evaluates :
    (Android.TCPConnection.receivePass (phoneChannel primitives sessionKey) false).Evaluates
      (peerAnswer primitives surroundings).queued
      (activationBytes primitives sessionKey ++ rest, outgoing)
      (⟨Android.TYPE_ACTIVATION, Linux.buildActivationPacket {}⟩,
        androidChannel primitives sessionKey false 0 1) (rest, outgoing) := by
  have hreceive := @androidChannel_receive primitives surroundings.clock sessionKey 0 0
    Linux.ACTIVATION (Linux.buildActivationPacket {}) true (by norm_num) (by norm_num) (by decide)
    60000 rest outgoing
  refine (evaluates_between hreceive).bind ?_
  have htype : ((Linux.ACTIVATION.toNat : Nat) : Int) = Android.TYPE_ACTIVATION := rfl
  dsimp only
  rw [if_neg (not_or.mpr ⟨not_not.mpr htype, Bool.false_ne_true⟩), htype]
  exact Prog.evaluates_ret _ _

end Evaluation

section Exchange

/-- `runSession` up to the pipeline. -/
def prepareMedia (inetPton : Bytes → Bool) (clientIp : Bytes) (sessionKey : Block 32) :
    Program (Option (Linux.MediaSource × Linux.AuthenticatedChannel)) := do
  let channel ← Linux.AuthenticatedChannel.ofSessionKey sessionKey true
  match ← Linux.acceptDescriptor inetPton clientIp channel with
  | none => .ret none
  | some (descriptor, channel) => Linux.activateMedia sessionKey descriptor channel

def runPrepared (passes : Nat) :
    Option (Linux.MediaSource × Linux.AuthenticatedChannel) → Program Bool
  | none => .ret false
  | some (source, channel) => Linux.runMedia passes source channel

theorem runSession_eq (inetPton : Bytes → Bool) (passes : Nat) (clientIp : Bytes)
    (sessionKey : Block 32) : Linux.runSession inetPton passes clientIp sessionKey =
      prepareMedia inetPton clientIp sessionKey >>= runPrepared passes := by
  unfold Linux.runSession prepareMedia
  rw [Prog.bind_assoc]
  congr 1
  funext channel
  rw [Prog.bind_assoc]
  congr 1
  funext accepted
  cases accepted with
  | none => rfl
  | some pair =>
      dsimp only
      congr 1

variable {primitives : Primitives} {controller phone : Surroundings} {inetPton : Bytes → Bool}
  {passes : Nat} {clientIp : Bytes} {sessionKey : Block 32} {descriptor : Bytes}
  {parsed : Linux.DeviceDescriptor} {rest outgoing : Bytes}

theorem prepareMedia_evaluates (hsize : descriptor.length + 24 ≤ 65536)
    (hparsed : Linux.parseDeviceDescriptor descriptor = .ok parsed)
    (hallowed : Linux.isAllowedRtspEndpoint inetPton parsed.rtspUrl clientIp = true)
    (hdevice : controller.device ≠ []) :
    (prepareMedia inetPton clientIp sessionKey).Evaluates
      (peerAnswer primitives controller).queued
      (descriptorBytes primitives sessionKey descriptor ++ rest, outgoing)
      (some (⟨Linux.authenticatedRtspUrl (mediaPasswordOf primitives sessionKey) parsed.rtspUrl,
        controller.device⟩, linuxChannel primitives sessionKey true 1 1))
      (rest, outgoing ++ activationBytes primitives sessionKey) := by
  refine (evaluates_between (linux_ofSessionKey_evaluates sessionKey true
    ⟨descriptorBytes primitives sessionKey descriptor ++ rest, outgoing⟩)).bind ?_
  exact (acceptDescriptor_evaluates hsize hparsed hallowed).bind (activateMedia_evaluates hdevice)

theorem ExchangeStep.leads (actor : Actor) {state : ExchangeState} {β : Type} {part : Program β}
    {value : β} {unread rest sent : Bytes} {next : β → Program (ActorResult actor)}
    (h : part.Evaluates (actorAnswers primitives controller phone actor).queued (unread, []) value
      (rest, sent))
    (hremaining : state.remaining actor = part >>= next) (hunread : state.unread actor = unread) :
    Relation.ReflTransGen (ExchangeStep primitives controller phone) state
      (state.move Actor.route actor (next value) rest sent) := by
  refine @Prog.Evaluates.leads _ _ _ _ _ _ (actorAnswers primitives controller phone) Actor.route
    state actor β part value unread rest sent h ?_ next hremaining hunread
  cases actor <;> decide

/-- Both of the phone's threads are there from the start, and the controller answers in
between. -/
theorem exchange_completes (hsize : descriptor.length + 24 ≤ 65536)
    (hparsed : Linux.parseDeviceDescriptor descriptor = .ok parsed)
    (hallowed : Linux.isAllowedRtspEndpoint inetPton parsed.rtspUrl clientIp = true)
    (hdevice : controller.device ≠ []) :
    Relation.ReflTransGen (ExchangeStep primitives controller phone)
      (exchangeStart primitives inetPton passes clientIp sessionKey descriptor)
      (exchangeEnd primitives controller passes sessionKey parsed.rtspUrl) := by
  have hsent : Relation.ReflTransGen (ExchangeStep primitives controller phone)
      (exchangeStart primitives inetPton passes clientIp sessionKey descriptor) _ :=
    ExchangeStep.leads .sender (sendDescriptor_evaluates hsize) (Prog.bind_ret _).symm rfl
  have hprepared := hsent.trans (ExchangeStep.leads .controller
    (prepareMedia_evaluates hsize hparsed hallowed hdevice)
    (runSession_eq inetPton passes clientIp sessionKey) (List.append_nil _).symm)
  obtain ⟨last, hlast, hreceived⟩ : ∃ last,
      last = exchangeEnd primitives controller passes sessionKey parsed.rtspUrl ∧
      Relation.ReflTransGen (ExchangeStep primitives controller phone)
        (exchangeStart primitives inetPton passes clientIp sessionKey descriptor) last := by
    refine ⟨_, ?_, hprepared.trans (ExchangeStep.leads .receiver receiveActivation_evaluates
      (Prog.bind_ret _).symm (List.append_nil _).symm)⟩
    refine Processes.ext (funext fun actor => ?_) (funext fun actor => ?_) <;> cases actor <;> rfl
  exact hlast ▸ hreceived

/-- The password that the phone derives from its own channel. -/
theorem phonePassword_evaluates (clock : Time) (wire : Wire) :
    (phoneChannel primitives sessionKey).mediaPassword.Evaluates (standardAnswer primitives clock)
      wire (mediaPasswordOf primitives sessionKey) wire := by
  obtain ⟨password, hpassword⟩ := @mediaPassword_agrees primitives clock sessionKey
  have hlinux : (Linux.deriveMediaPassword sessionKey).Evaluates (standardAnswer primitives clock)
      wire (mediaPasswordOf primitives sessionKey) wire :=
    Prog.evaluates_perform_bind rfl (Prog.evaluates_ret _ _)
  obtain ⟨rfl, -⟩ := (hpassword wire).1.unique hlinux
  exact (hpassword wire).2

/-- The options that the controller sends are in every range that the phone checks. -/
theorem activation_deserialized (newInstance : Android.FilterRepository.FilterClass → Bool)
    (fresh : Nat) :
    Android.StreamOptions.deserialize newInstance fresh (Linux.buildActivationPacket {}) =
      .ok (Linux.StreamOptions.received {}) := by
  have haccepted : (Linux.StreamOptions.fields {}).Accepted := by
    constructor <;> decide
  rw [Linux.buildActivationPacket_eq, @Android.StreamOptions.deserialize_encoded newInstance _
    haccepted [] (Nat.zero_le _) (fun _ hmem => absurd hmem List.not_mem_nil) [] (Nat.zero_le _) []
    rfl fresh]
  rfl

theorem url_ne_nil {url : Jvm.JString}
    (hallowed : Linux.isAllowedRtspEndpoint inetPton (Jvm.toUtf8 url) clientIp = true) :
    url ≠ [] := by
  rintro rfl
  obtain ⟨scheme, hscheme, hurl, -⟩ := Linux.isAllowedRtspEndpoint_shape hallowed
  have hempty : Jvm.toUtf8 [] = [] := rfl
  rw [hempty, eq_comm] at hurl
  simp only [List.append_eq_nil_iff] at hurl
  obtain ⟨⟨⟨rfl, -⟩, -⟩, -⟩ := hurl
  revert hscheme
  decide

/-- From a descriptor that the phone serializes and the controller accepts, the session comes to
the start of the pipeline, under the password that the phone derives itself, and to options that
the phone takes. -/
theorem exchange_inevitable {described : Android.DeviceDescriptor} (fresh : Nat)
    (newInstance : Android.FilterRepository.FilterClass → Bool)
    (hdescriptor : described.serialize = .ok descriptor)
    (hprintable : ∀ text ∈ described.strings, Android.DeviceDescriptor.Printable text)
    (hallowed : Linux.isAllowedRtspEndpoint inetPton (Jvm.toUtf8 described.url) clientIp = true)
    (hdevice : controller.device ≠ []) :
    Inevitable (ExchangeStep primitives controller phone)
      (exchangeStart primitives inetPton passes clientIp sessionKey descriptor)
      (exchangeEnd primitives controller passes sessionKey (Jvm.toUtf8 described.url)) ∧
    (∀ clock wire, (phoneChannel primitives sessionKey).mediaPassword.Evaluates
      (standardAnswer primitives clock) wire (mediaPasswordOf primitives sessionKey) wire) ∧
    Android.StreamOptions.deserialize newInstance fresh (Linux.buildActivationPacket {}) =
      .ok (Linux.StreamOptions.received {}) := by
  refine ⟨?_, phonePassword_evaluates, activation_deserialized newInstance fresh⟩
  obtain ⟨hadmitted, rfl⟩ :=
    (Android.DeviceDescriptor.serialize_ok_iff described descriptor).mp hdescriptor
  have hsmall := Android.DeviceDescriptor.requiredSize_le hadmitted
  have hparsed := (Android.DeviceDescriptor.parse_serialized_iff hadmitted described.wire).mpr
    ⟨⟨url_ne_nil hallowed, hprintable⟩, rfl⟩
  have hsize : (Linux.encodeDeviceDescriptor described.wire).length + 24 ≤ 65536 := by
    rw [Android.DeviceDescriptor.encode_length]
    omega
  have hroute : Function.Injective Actor.route := by
    intro left right
    cases left <;> cases right <;> decide
  have hmonotone : ∀ actor, (actorAnswers primitives controller phone actor).Monotone := by
    intro actor
    cases actor <;> exact peerAnswer_monotone
  refine (processStep_diamond hmonotone hroute).inevitable (processStep_final ?_)
    (exchange_completes hsize hparsed hallowed hdevice)
  intro actor op next hnext
  cases actor with
  | controller =>
      cases hnext
      rfl
  | sender => cases hnext
  | receiver => cases hnext

/-- The phone of `sampleDescriptor`. -/
def sampleDescribed : Android.DeviceDescriptor where
  name := Jvm.literal "P"
  url := Jvm.literal "rtsp://10.0.0.2:8554/live/0123456789abcdef0123456789abcdef"
  backResolutions := []
  frontResolutions := []
  filterInfos := []

theorem exchange_inevitable_sample :
    Inevitable
      (ExchangeStep samplePrimitives ⟨sampleServerNonce, 0, ascii "/dev/video0"⟩
        ⟨sampleClientNonce, 0, []⟩)
      (exchangeStart samplePrimitives Linux.dottedQuad 3 (ascii "10.0.0.2") sampleSessionKey
        sampleDescriptor)
      (exchangeEnd samplePrimitives ⟨sampleServerNonce, 0, ascii "/dev/video0"⟩ 3 sampleSessionKey
        (Jvm.toUtf8 sampleDescribed.url)) := by
  have hdescriptor : sampleDescribed.serialize = .ok sampleDescriptor := by decide +kernel
  have hprintable : ∀ text ∈ sampleDescribed.strings,
      Android.DeviceDescriptor.Printable text := by
    decide +kernel
  exact (exchange_inevitable 0 (fun _ => true) hdescriptor hprintable (by decide +kernel)
    (List.cons_ne_nil _ _)).1

end Exchange

end OpenCam.Control
