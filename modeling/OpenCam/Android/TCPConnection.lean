import OpenCam.Android.ControlProtocol
import OpenCam.Android.LegacyFraming
import OpenCam.Control.Socket

/-!
`TCPConnection.kt` once it is connected: what it sends, and its receiver thread. The thread
shares `running` with the threads that may close the connection, and it calls a listener that
may throw.
-/

namespace OpenCam.Android

open Octets Interaction Control

namespace TCPConnection

section Sending

open Jvm

/-- `sendMessage` over Wi-Fi. -/
def sendMessage (authenticatedChannel : Option AuthenticatedChannel) (type : Int)
    (payload : Bytes) : Program AuthenticatedChannel := do
  require (payload.length ≤ MAX_PAYLOAD) "Failed requirement."
  match authenticatedChannel with
  | none => .throw "Authenticated channel unavailable"
  | some channel => channel.send type payload

/-- What `sendMessage` writes over USB. -/
def legacyWire (type : Int) (payload : Bytes) : Except Throwable Bytes := do
  require' (payload.length ≤ MAX_PAYLOAD)
  if type = TYPE_DESCRIPTOR then do
    require' (1 ≤ payload.length && payload.length ≤ MAX_PAYLOAD)
    let sized ← (ByteBuffer.allocate (4 + payload.length)).put (int32Bytes payload.length)
    let filled ← sized.put payload
    .ok filled.array
  else if type = TYPE_ERROR_REPORT then .ok payload
  else .ok (toByte type :: payload)

theorem legacyWire_descriptor {payload : Bytes} (h : 1 ≤ payload.length)
    (hmax : payload.length ≤ 64 * 1024) :
    legacyWire TYPE_DESCRIPTOR payload = .ok (int32Bytes payload.length ++ payload) := by
  have hfits : ((payload.length : Int) ≤ MAX_PAYLOAD) := by
    rw [MAX_PAYLOAD]
    omega
  have hfilled : (ByteBuffer.allocate (4 + payload.length)).put (int32Bytes payload.length) >>=
      (fun sized => sized.put payload) =
      .ok ⟨int32Bytes payload.length ++ payload, 4 + payload.length⟩ := by
    have hlength : (int32Bytes payload.length ++ payload).length = 4 + payload.length := by
      rw [List.length_append, int32Bytes, beBytes_length]
    rw [← hlength]
    exact ((ByteBuffer.appends_put _).andThen (ByteBuffer.appends_put payload)).fills
  simp only [legacyWire, require', hfits, h, decide_true, Bool.and_self, ↓reduceIte,
    require_bind_ok, true_and]
  rw [← bind_assoc, hfilled]
  rfl

end Sending

inductive ReceiverOp where
  -- what the authenticated channel asks for
  | control (op : Op)
  -- `running.get()` and `running.getAndSet(false)`
  | running
  | stopRunning
  -- `socket.getInputStream().read(buffer)` and `socket.close()`
  | read (size : Nat)
  | close
  -- the listener
  | onLegacyBytes (buffer : Bytes) (bytes : Nat)
  | onFrameReceived (type : Int) (payload : Bytes)
  | onDisconnected
deriving DecidableEq

/-- A call of the listener for what was received answers whether it has returned. -/
@[reducible] def ReceiverOp.Res : ReceiverOp → Type
  | control op => op.Res
  | running => Bool
  | stopRunning => Bool
  | read size => ReadResult size
  | close => Unit
  | onLegacyBytes _ _ => Bool
  | onFrameReceived _ _ => Bool
  | onDisconnected => Unit

abbrev ReceiverProgram (α : Type) := Prog ReceiverOp ReceiverOp.Res α

abbrev ReceiverEvent := Event ReceiverOp ReceiverOp.Res

abbrev receiver (op : ReceiverOp) : ReceiverProgram op.Res := Prog.perform op

/-- The channel's programs among the thread's own calls. -/
def overControl {α : Type} (program : Program α) : ReceiverProgram α :=
  program.refine fun op => receiver (.control op)

section Loops

/-- One frame, of which the channel accepts an activation and then nothing. -/
def receivePass (channel : AuthenticatedChannel) (activated : Bool) :
    Program (Frame × AuthenticatedChannel) := do
  let (frame, channel) ← channel.receive (if activated then -1 else 60000)
  if frame.type ≠ TYPE_ACTIVATION ∨ activated then .throw "Unexpected server message"
  else .ret (frame, channel)

def frameLoop : Nat → AuthenticatedChannel → Bool → ReceiverProgram Unit
  | 0, _, _ => .unfinished
  | passes + 1, channel, activated => do
      match ← receiver .running with
      | false => .ret ()
      | true => do
          let (frame, channel) ← overControl (receivePass channel activated)
          match ← receiver (.onFrameReceived frame.type frame.payload) with
          | false => .throw "onFrameReceived"
          | true => frameLoop passes channel true

/-- A buffer that is not empty is read into until one byte has come at least, so no count is
zero. -/
def legacyLoop : Nat → ReceiverProgram Unit
  | 0 => .unfinished
  | passes + 1 => do
      match ← receiver .running with
      | false => .ret ()
      | true =>
          match ← receiver (.read LEGACY_BUFFER) with
          | .endOfStream => .ret ()
          | .failed => .throw "read"
          | .data piece =>
              match ← receiver (.onLegacyBytes piece.val piece.val.length) with
              | false => .throw "onLegacyBytes"
              | true => legacyLoop passes

/-- The body of `try`. -/
def receiveBody (passes : Nat) (isOverAdb : Bool) :
    Option AuthenticatedChannel → ReceiverProgram Unit
  | none => if isOverAdb then legacyLoop passes else .ret ()
  | some channel => if isOverAdb then legacyLoop passes else frameLoop passes channel false

/-- `if (running.getAndSet(false)) listener.onDisconnected(this)`. -/
def reportEnd (wasRunning : Bool) : ReceiverProgram Unit :=
  if wasRunning then receiver .onDisconnected else .ret ()

/-- The body of `finally`. -/
def endReceiver : ReceiverProgram Unit := do
  let wasRunning ← receiver .stopRunning
  reportEnd wasRunning
  receiver .close

/-- An exception decides about a line of the log only. -/
def receiveLoop (passes : Nat) (isOverAdb : Bool)
    (authenticatedChannel : Option AuthenticatedChannel) : ReceiverProgram Unit := do
  match ← (receiveBody passes isOverAdb authenticatedChannel).attempt with
  | .ok _ => endReceiver
  | .error _ => do
      let _ ← receiver .running
      endReceiver

end Loops

section Observations

/-- The frame that an event passes on. -/
def ReceiverEvent.frame : ReceiverEvent → Option Frame
  | ⟨.onFrameReceived type payload, _⟩ => some ⟨type, payload⟩
  | _ => none

/-- The frames that a run has passed on. -/
def delivered (trace : List ReceiverEvent) : List Frame := trace.filterMap ReceiverEvent.frame

/-- What a read has brought. -/
def ReceiverEvent.piece : ReceiverEvent → Option Bytes
  | ⟨.read _, .data piece⟩ => some piece.val
  | _ => none

/-- The bytes that an event passes on. -/
def ReceiverEvent.passed : ReceiverEvent → Option Bytes
  | ⟨.onLegacyBytes buffer _, _⟩ => some buffer
  | _ => none

/-- The reads of a run. -/
def pieces (trace : List ReceiverEvent) : List Bytes := trace.filterMap ReceiverEvent.piece

/-- What a run has passed on of a stream without frames. -/
def passed (trace : List ReceiverEvent) : List Bytes := trace.filterMap ReceiverEvent.passed

@[simp] theorem delivered_append (front back : List ReceiverEvent) :
    delivered (front ++ back) = delivered front ++ delivered back := List.filterMap_append

@[simp] theorem pieces_append (front back : List ReceiverEvent) :
    pieces (front ++ back) = pieces front ++ pieces back := List.filterMap_append

@[simp] theorem passed_append (front back : List ReceiverEvent) :
    passed (front ++ back) = passed front ++ passed back := List.filterMap_append

/-- Anything but a frame for the listener. -/
def ReceiverOp.PassesNoFrame : ReceiverOp → Prop
  | .onFrameReceived _ _ => False
  | _ => True

/-- Neither a read nor anything that was received. -/
def ReceiverOp.IsQuiet : ReceiverOp → Prop
  | .running | .stopRunning | .onDisconnected | .close => True
  | _ => False

theorem delivered_eq_nil {trace : List ReceiverEvent}
    (h : ∀ event ∈ trace, event.op.PassesNoFrame) : delivered trace = [] := by
  rw [delivered, List.filterMap_eq_nil_iff]
  rintro ⟨op, res⟩ hmem
  have hop : op.PassesNoFrame := h _ hmem
  cases op <;> first | rfl | exact hop.elim

theorem observations_eq_nil {trace : List ReceiverEvent} (h : ∀ event ∈ trace, event.op.IsQuiet) :
    delivered trace = [] ∧ pieces trace = [] ∧ passed trace = [] := by
  refine ⟨?_, ?_, ?_⟩
  all_goals
    refine List.filterMap_eq_nil_iff.mpr ?_
    rintro ⟨op, res⟩ hmem
    have hop : op.IsQuiet := h _ hmem
    cases op <;> first | rfl | exact hop.elim

/-- The operations of the last block. -/
def ReceiverOp.IsEnding : ReceiverOp → Prop
  | .stopRunning | .onDisconnected | .close => True
  | _ => False

end Observations

section Frames

variable {α : Type} {program : Program α} {channel : AuthenticatedChannel} {activated : Bool}
  {passes : Nat} {trace : List ReceiverEvent}

/-- An action of the channel. -/
def ofAction (action : Action) : ReceiverEvent := ⟨.control action.op, action.res⟩

theorem expands_overControl {actions : Trace}
    (h : Prog.Expands (fun op => receiver (.control op)) actions trace) :
    trace = actions.map ofAction := by
  induction h with
  | nil => rfl
  | cons run _ ih =>
      obtain rfl := returns_perform_iff.mp run
      rw [ih]
      rfl

theorem overControl_performs {Permitted : ReceiverOp → Prop}
    (hcontrol : ∀ op, Permitted (.control op)) : (overControl program).Performs Permitted := by
  induction program with
  | ret value => trivial
  | throw error => trivial
  | unfinished => trivial
  | call op next ih => exact ⟨hcontrol op, ih⟩

theorem delivered_overControl {stop : ReceiverProgram α}
    (run : Runs (overControl program) trace stop) : delivered trace = [] :=
  delivered_eq_nil (run.performs (overControl_performs fun _ => trivial)).1

/-- Once the connection is activated every frame is one too many. -/
theorem receivePass_activated {actions : Trace} {received : Frame × AuthenticatedChannel} :
    ¬ Runs (receivePass channel true) actions (.ret received) := by
  intro run
  obtain ⟨⟨frame, channel'⟩, front, back, -, -, hback⟩ := returns_bind_iff.mp run
  dsimp only at hback
  rw [if_pos (Or.inr rfl)] at hback
  cases (runs_throw_iff.mp hback).2

/-- A pass that returns has opened an activation with the channel's next nonce. -/
theorem receivePass_returns (hrange : channel.InRange) {actions : Trace} {frame : Frame}
    {channel' : AuthenticatedChannel}
    (run : Runs (receivePass channel false) actions (.ret (frame, channel'))) :
    frame.type = TYPE_ACTIVATION ∧ ∃ (ciphertext tag : Bytes) (arrival : Trace),
      tag.length = 16 ∧ actions = arrival ++ [⟨.gcmDecrypt channel.receiveKey
        (gcmNonce (!channel.serverSide) channel.receiveSequence.toNat)
        (encodeHeader 5 (ciphertext.length + 24)) ciphertext tag, some frame.payload⟩] := by
  obtain ⟨⟨received, channel''⟩, front, back, rfl, hfront, hback⟩ := returns_bind_iff.mp run
  dsimp only at hback
  split at hback
  · cases (runs_throw_iff.mp hback).2
  · next hactivation =>
      obtain ⟨htype, -⟩ := not_or.mp hactivation
      rw [not_not] at htype
      obtain ⟨rfl, hvalue⟩ := runs_ret_iff.mp hback
      cases hvalue
      obtain ⟨-, -, byte, ciphertext, tag, arrival, hbyte, htag, -, -, rfl⟩ :=
        AuthenticatedChannel.receive_returns hrange hfront
      obtain rfl : byte = 5 := by
        apply UInt8.toNat_inj.mp
        rw [htype, TYPE_ACTIVATION] at hbyte
        exact_mod_cast hbyte.symm
      exact ⟨htype, ciphertext, tag, arrival, htag, List.append_nil _⟩

/-- Nothing is passed on behind an activation. -/
theorem frameLoop_activated {stop : ReceiverProgram Unit}
    (run : Runs (frameLoop passes channel true) trace stop) : delivered trace = [] := by
  cases passes with
  | zero =>
      obtain ⟨rfl, -⟩ := runs_unfinished_iff.mp run
      rfl
  | succ passes =>
      rcases runs_perform_bind_iff.mp run with ⟨rfl, -⟩ | ⟨running, rest, rfl, hrest⟩
      · rfl
      · cases running with
        | false =>
            obtain ⟨rfl, -⟩ := runs_ret_iff.mp hrest
            rfl
        | true =>
            rcases runs_bind_iff.mp hrest with ⟨middle, hmiddle, -, -⟩ | ⟨_, front, _, _, hfront, _⟩
            · have hquiet : delivered rest = [] := delivered_overControl hmiddle
              exact hquiet
            · obtain ⟨actions, hactions, -⟩ := Prog.returns_refine hfront
              exact absurd hactions receivePass_activated

/-- The run has passed on one frame, an activation: what the channel's first message from its
peer decrypts to, and nothing has come between the two. -/
def ActivatesOnce (channel : AuthenticatedChannel) (trace : List ReceiverEvent) : Prop :=
  ∃ (payload ciphertext tag : Bytes) (before after : List ReceiverEvent) (returned : Bool),
    tag.length = 16 ∧
    trace = before ++ [⟨.control (.gcmDecrypt channel.receiveKey (gcmNonce (!channel.serverSide) 0)
        (encodeHeader 5 (ciphertext.length + 24)) ciphertext tag), some payload⟩,
      ⟨.onFrameReceived TYPE_ACTIVATION payload, returned⟩] ++ after ∧
    delivered before = [] ∧ delivered after = []

theorem ActivatesOnce.append {back : List ReceiverEvent} (h : ActivatesOnce channel trace)
    (hback : delivered back = []) : ActivatesOnce channel (trace ++ back) := by
  obtain ⟨payload, ciphertext, tag, before, after, returned, htag, rfl, hbefore, hafter⟩ := h
  refine ⟨payload, ciphertext, tag, before, after ++ back, returned, htag,
    List.append_assoc _ _ _, hbefore, ?_⟩
  rw [delivered_append, hafter, hback, List.append_nil]

theorem frameLoop_delivers (hrange : channel.InRange) (hfirst : channel.receiveSequence = 0)
    {stop : ReceiverProgram Unit} (run : Runs (frameLoop passes channel false) trace stop) :
    delivered trace = [] ∨ ActivatesOnce channel trace := by
  cases passes with
  | zero =>
      obtain ⟨rfl, -⟩ := runs_unfinished_iff.mp run
      exact .inl rfl
  | succ passes =>
      rcases runs_perform_bind_iff.mp run with ⟨rfl, -⟩ | ⟨running, rest, rfl, hrest⟩
      · exact .inl rfl
      · cases running with
        | false =>
            obtain ⟨rfl, -⟩ := runs_ret_iff.mp hrest
            exact .inl rfl
        | true =>
            rcases runs_bind_iff.mp hrest with ⟨middle, hmiddle, -, -⟩ |
              ⟨⟨frame, channel'⟩, front, back, rfl, hfront, hback⟩
            · have hquiet : delivered rest = [] := delivered_overControl hmiddle
              exact .inl hquiet
            · obtain ⟨actions, hactions, hexpands⟩ := Prog.returns_refine hfront
              obtain rfl := expands_overControl hexpands
              have hquiet : delivered (actions.map ofAction) = [] := delivered_overControl hfront
              rcases runs_perform_bind_iff.mp hback with ⟨rfl, -⟩ | ⟨returned, later, rfl, hlater⟩
              · rw [List.append_nil]
                exact .inl hquiet
              · have hafter : delivered later = [] := by
                  cases returned with
                  | false =>
                      obtain ⟨rfl, -⟩ := runs_throw_iff.mp hlater
                      rfl
                  | true => exact frameLoop_activated hlater
                obtain ⟨htype, ciphertext, tag, arrival, htag, rfl⟩ :=
                  receivePass_returns hrange hactions
                rw [hfirst] at hquiet ⊢
                refine .inr ⟨frame.payload, ciphertext, tag,
                  ⟨.running, true⟩ :: arrival.map ofAction, later, returned, htag, ?_, ?_, hafter⟩
                · rw [htype, List.map_append]
                  simp only [List.cons_append, List.append_assoc]
                  rfl
                · rw [List.map_append, delivered_append] at hquiet
                  exact (List.append_eq_nil_iff.mp hquiet).1

end Frames

section Bytes

variable {passes : Nat} {trace : List ReceiverEvent}

/-- Every read has been passed on, but perhaps the last, which is `held`. -/
structure PassedOn (trace : List ReceiverEvent) (held : List Bytes) : Prop where
  order : pieces trace = passed trace ++ held
  sizes : ∀ piece ∈ passed trace, 1 ≤ piece.length ∧ piece.length ≤ LEGACY_BUFFER

theorem passedOn_nil : PassedOn [] [] := ⟨rfl, fun _ hmem => by cases hmem⟩

theorem PassedOn.running {held : List Bytes} (h : PassedOn trace held) (running : Bool) :
    PassedOn (⟨.running, running⟩ :: trace) held := ⟨h.order, h.sizes⟩

theorem PassedOn.pass {held : List Bytes} (h : PassedOn trace held) (piece : Piece LEGACY_BUFFER)
    (count : Nat) (returned : Bool) :
    PassedOn (⟨.read LEGACY_BUFFER, .data piece⟩ :: ⟨.onLegacyBytes piece.val count, returned⟩ ::
      trace) held where
  order := congrArg (piece.val :: ·) h.order
  sizes := by
    intro other hmem
    rcases List.mem_cons.mp hmem with rfl | hmem
    · exact ⟨List.length_pos_of_ne_nil piece.property.1, piece.property.2⟩
    · exact h.sizes other hmem

/-- By induction on the passes. A run that has left the loop holds nothing back. -/
theorem legacyLoop_passes {stop : ReceiverProgram Unit}
    (run : Runs (legacyLoop passes) trace stop) :
    ∃ held, PassedOn trace held ∧ held.length ≤ 1 ∧ ((∀ op next, stop ≠ .call op next) → held = []) := by
  induction passes generalizing trace with
  | zero =>
      obtain ⟨rfl, -⟩ := runs_unfinished_iff.mp run
      exact ⟨[], passedOn_nil, by simp, fun _ => rfl⟩
  | succ passes ih =>
      rcases runs_perform_bind_iff.mp run with ⟨rfl, -⟩ | ⟨running, rest, rfl, hrest⟩
      · exact ⟨[], passedOn_nil, by simp, fun _ => rfl⟩
      cases running with
      | false =>
          obtain ⟨rfl, -⟩ := runs_ret_iff.mp hrest
          exact ⟨[], passedOn_nil.running false, by simp, fun _ => rfl⟩
      | true =>
          rcases runs_perform_bind_iff.mp hrest with ⟨rfl, -⟩ | ⟨result, rest, rfl, hresult⟩
          · exact ⟨[], passedOn_nil.running true, by simp, fun _ => rfl⟩
          cases result with
          | endOfStream =>
              obtain ⟨rfl, -⟩ := runs_ret_iff.mp hresult
              exact ⟨[], ⟨rfl, fun _ hmem => by cases hmem⟩, by simp, fun _ => rfl⟩
          | failed =>
              obtain ⟨rfl, -⟩ := runs_throw_iff.mp hresult
              exact ⟨[], ⟨rfl, fun _ hmem => by cases hmem⟩, by simp, fun _ => rfl⟩
          | data piece =>
              rcases runs_perform_bind_iff.mp hresult with ⟨rfl, rfl⟩ |
                ⟨returned, rest, rfl, hlater⟩
              · exact ⟨[piece.val], ⟨rfl, fun _ hmem => by cases hmem⟩, by simp,
                  fun hstop => absurd rfl (hstop _ _)⟩
              cases returned with
              | false =>
                  obtain ⟨rfl, -⟩ := runs_throw_iff.mp hlater
                  exact ⟨[], (passedOn_nil.pass piece _ false).running true, by simp,
                    fun _ => rfl⟩
              | true =>
                  obtain ⟨held, hheld, hlength, hstop⟩ := ih hlater
                  exact ⟨held, (hheld.pass piece _ true).running true, hlength, hstop⟩

end Bytes

section Ending

variable {passes : Nat} {isOverAdb : Bool} {channel : Option AuthenticatedChannel}
  {trace : List ReceiverEvent}

/-- Only the last block stops, reports and closes. -/
def ReceiverOp.GoesOn (op : ReceiverOp) : Prop := ¬ op.IsEnding

theorem frameLoop_performs (channel : AuthenticatedChannel) (activated : Bool) :
    (frameLoop passes channel activated).Performs ReceiverOp.GoesOn := by
  induction passes generalizing channel activated with
  | zero => trivial
  | succ passes ih =>
      refine ⟨id, fun running => ?_⟩
      cases running with
      | false => trivial
      | true =>
          refine (overControl_performs fun _ => id).bind fun received => ⟨id, fun returned => ?_⟩
          cases returned with
          | false => trivial
          | true => exact ih _ _

theorem legacyLoop_performs : (legacyLoop passes).Performs ReceiverOp.GoesOn := by
  induction passes with
  | zero => trivial
  | succ passes ih =>
      refine ⟨id, fun running => ?_⟩
      cases running with
      | false => trivial
      | true =>
          refine ⟨id, fun result => ?_⟩
          cases result with
          | endOfStream => trivial
          | failed => trivial
          | data piece =>
              refine ⟨id, fun returned => ?_⟩
              cases returned with
              | false => trivial
              | true => exact ih

theorem receiveBody_performs : (receiveBody passes isOverAdb channel).Performs ReceiverOp.GoesOn := by
  cases channel with
  | none => cases isOverAdb with
    | false => trivial
    | true => exact legacyLoop_performs
  | some channel => cases isOverAdb with
    | false => exact frameLoop_performs channel false
    | true => exact legacyLoop_performs

/-- The last block: the flag is taken down once, the end is reported if it was still up, and
then the socket is closed. -/
theorem endReceiver_returns (run : Runs endReceiver trace (.ret ())) :
    ∃ wasRunning : Bool, trace = ⟨.stopRunning, wasRunning⟩ ::
      ((if wasRunning then [⟨.onDisconnected, ()⟩] else []) ++ [⟨.close, ()⟩]) := by
  obtain ⟨wasRunning, rest, rfl, hrest⟩ := returns_perform_bind_iff.mp run
  refine ⟨wasRunning, ?_⟩
  cases wasRunning with
  | false =>
      obtain ⟨_, _, rfl, hclose⟩ := returns_call_iff.mp hrest
      obtain ⟨rfl, -⟩ := runs_ret_iff.mp hclose
      rfl
  | true =>
      obtain ⟨_, _, rfl, hreport⟩ := returns_call_iff.mp hrest
      obtain ⟨_, _, rfl, hclose⟩ := returns_call_iff.mp hreport
      obtain ⟨rfl, -⟩ := runs_ret_iff.mp hclose
      rfl

theorem endReceiver_performs : endReceiver.Performs ReceiverOp.IsQuiet := by
  refine ⟨trivial, fun wasRunning => ?_⟩
  cases wasRunning with
  | false => exact ⟨trivial, fun _ => trivial⟩
  | true => exact ⟨trivial, fun _ => ⟨trivial, fun _ => trivial⟩⟩

/-- What follows the loops, whether they returned or threw. -/
theorem receiveLoop_runs {stop : ReceiverProgram Unit}
    (run : Runs (receiveLoop passes isOverAdb channel) trace stop) :
    ∃ front back middle, trace = front ++ back ∧
      Runs (receiveBody passes isOverAdb channel) front middle ∧
      (∀ event ∈ back, event.op.IsQuiet) ∧
      (stop = .ret () → (∀ op next, middle ≠ .call op next) ∧
        ∃ checked tail : List ReceiverEvent,
          back = checked ++ tail ∧ (∀ event ∈ checked, event.op = .running) ∧
          Runs endReceiver tail (.ret ())) := by
  rcases runs_bind_iff.mp run with ⟨middle, hmiddle, hreturned, rfl⟩ |
    ⟨result, front, back, rfl, hfront, hback⟩
  · obtain ⟨body, hbody, rfl⟩ := runs_attempt_iff.mp hmiddle
    refine ⟨trace, [], body, (List.append_nil _).symm, hbody, by simp, fun hstop => ?_⟩
    cases body with
    | ret value => exact absurd rfl (hreturned _)
    | throw error => exact absurd rfl (hreturned _)
    | unfinished => cases hstop
    | call op next => cases hstop
  · obtain ⟨body, hbody, hresult⟩ := runs_attempt_iff.mp hfront
    have hleft : ∀ op next, body ≠ .call op next := by
      rintro op next rfl
      cases hresult
    refine ⟨front, back, body, rfl, hbody, ?_, ?_⟩
    · cases result with
      | ok _ => exact (hback.performs endReceiver_performs).1
      | error _ =>
          have hchecks : (receiver .running >>= fun _ => endReceiver).Performs
            ReceiverOp.IsQuiet := ⟨trivial, fun _ => endReceiver_performs⟩
          exact (hback.performs hchecks).1
    · rintro rfl
      cases result with
      | ok _ => exact ⟨hleft, [], back, rfl, by simp, hback⟩
      | error _ =>
          obtain ⟨answer, rest, rfl, hrest⟩ := returns_perform_bind_iff.mp hback
          exact ⟨hleft, [⟨.running, answer⟩], rest, rfl, by simp, hrest⟩

/-- A finished run closes the socket once, at its end; it reports the end of the connection
before that, and only if nobody else has stopped it. -/
def EndsOnce (trace : List ReceiverEvent) : Prop :=
  ∃ (front : List ReceiverEvent) (wasRunning : Bool),
    trace = front ++ ⟨.stopRunning, wasRunning⟩ ::
      ((if wasRunning then [⟨.onDisconnected, ()⟩] else []) ++ [⟨.close, ()⟩]) ∧
    ∀ event ∈ front, ¬ event.op.IsEnding

theorem receiveLoop_ends (run : Runs (receiveLoop passes isOverAdb channel) trace (.ret ())) :
    EndsOnce trace := by
  obtain ⟨front, back, middle, rfl, hbody, -, hends⟩ := receiveLoop_runs run
  obtain ⟨-, checked, tail, rfl, hchecked, htail⟩ := hends rfl
  obtain ⟨wasRunning, rfl⟩ := endReceiver_returns htail
  refine ⟨front ++ checked, wasRunning, (List.append_assoc _ _ _).symm, fun event hmem => ?_⟩
  rcases List.mem_append.mp hmem with hfront | hcheck
  · exact (hbody.performs receiveBody_performs).1 event hfront
  · rw [hchecked event hcheck]
    exact id

/-- The thread of an authenticated connection, whatever arrives, whatever the listener does and
whoever stops it. -/
theorem receiver_activates_once {channel : AuthenticatedChannel} (hrange : channel.InRange)
    (hfirst : channel.receiveSequence = 0) {stop : ReceiverProgram Unit}
    (run : Runs (receiveLoop passes false (some channel)) trace stop) :
    (delivered trace = [] ∨ ActivatesOnce channel trace) ∧ (stop = .ret () → EndsOnce trace) := by
  constructor
  · obtain ⟨front, back, middle, rfl, hbody, hback, -⟩ := receiveLoop_runs run
    obtain ⟨hquiet, -, -⟩ := observations_eq_nil hback
    rcases frameLoop_delivers hrange hfirst hbody with hfront | honce
    · rw [delivered_append, hfront, hquiet]
      exact .inl rfl
    · exact .inr (honce.append hquiet)
  · rintro rfl
    exact receiveLoop_ends run

/-- A peer whose bytes are all there, and then closes; reads that take one byte each; a cipher
that opens everything to three bytes; a listener that always returns. -/
def sampleAnswer : (op : ReceiverOp) → Bytes → Option (op.Res × Bytes)
  | .running, bytes => some (true, bytes)
  | .stopRunning, bytes => some (true, bytes)
  | .close, bytes => some ((), bytes)
  | .onLegacyBytes _ _, bytes => some (true, bytes)
  | .onFrameReceived _ _, bytes => some (true, bytes)
  | .onDisconnected, bytes => some ((), bytes)
  | .read _, [] => some (.endOfStream, [])
  | .read size, byte :: rest =>
      if h : 1 ≤ size then some (.data ⟨[byte], List.cons_ne_nil _ _, h⟩, rest)
      else some (.failed, byte :: rest)
  | .control .now, bytes => some (0, bytes)
  | .control (.gcmDecrypt _ _ _ _ _), bytes => some (some [1, 2, 3], bytes)
  | .control (.readAll size _ _), bytes =>
      if h : size ≤ bytes.length then
        some (some ⟨bytes.take size, List.length_take_of_le h⟩, bytes.drop size)
      else some (none, bytes)
  | _, _ => none

def sampleChannel : AuthenticatedChannel := ⟨[], [1], [2], 0, 0, false⟩

/-- Two activations, of which the second is one too many. -/
def sampleStream : Bytes :=
  encodeFrame ⟨5, beBytes 8 0 ++ List.replicate 16 0⟩ ++
    encodeFrame ⟨5, beBytes 8 1 ++ List.replicate 16 0⟩

def sampleRun : Execution ReceiverOp ReceiverOp.Res Unit Bytes :=
  (receiveLoop 3 false (some sampleChannel)).execute sampleAnswer sampleStream

/-- The second frame ends the connection. -/
theorem receiver_activates_once_sample :
    delivered sampleRun.trace = [⟨TYPE_ACTIVATION, [1, 2, 3]⟩] ∧
      (delivered sampleRun.trace = [] ∨ ActivatesOnce sampleChannel sampleRun.trace) ∧
      (sampleRun.rest = .ret () → EndsOnce sampleRun.trace) :=
  ⟨by decide +kernel, receiver_activates_once ⟨by decide, by decide⟩ rfl
    (Prog.execute_runs sampleAnswer (receiveLoop 3 false (some sampleChannel)) sampleStream)⟩

/-- The thread of a connection over USB: it passes the stream on as it was cut, and holds back
one read at most. -/
theorem legacyReceiver_cuts {stop : ReceiverProgram Unit}
    (run : Runs (receiveLoop passes true channel) trace stop) :
    Cuts (passed trace).flatten (passed trace) ∧
      (∃ held, pieces trace = passed trace ++ held ∧ held.length ≤ 1) ∧
      (stop = .ret () → pieces trace = passed trace ∧ EndsOnce trace) := by
  have hloop : receiveBody passes true channel = legacyLoop passes := by cases channel <;> rfl
  have hrun := receiveLoop_runs run
  rw [hloop] at hrun
  obtain ⟨front, back, middle, rfl, hbody, hback, hends⟩ := hrun
  obtain ⟨held, hheld, hlength, hleft⟩ := legacyLoop_passes hbody
  obtain ⟨-, hreads, hpasses⟩ := observations_eq_nil hback
  have hpassed : passed (front ++ back) = passed front := by
    rw [passed_append, hpasses, List.append_nil]
  have hpieces : pieces (front ++ back) = passed front ++ held := by
    rw [pieces_append, hreads, List.append_nil, hheld.order]
  rw [hpassed, hpieces]
  refine ⟨⟨rfl, hheld.sizes⟩, ⟨held, rfl, hlength⟩, ?_⟩
  rintro rfl
  rw [hleft (hends rfl).1, List.append_nil]
  exact ⟨rfl, receiveLoop_ends run⟩

/-- Two commands, of three bytes together. -/
def legacySampleRun : Execution ReceiverOp ReceiverOp.Res Unit Bytes :=
  (receiveLoop 4 true none).execute sampleAnswer [3, 7, 90]

theorem legacyReceiver_cuts_sample :
    passed legacySampleRun.trace = [[3], [7], [90]] ∧
      Cuts (passed legacySampleRun.trace).flatten (passed legacySampleRun.trace) :=
  ⟨by decide +kernel, (legacyReceiver_cuts
    (Prog.execute_runs sampleAnswer (receiveLoop 4 true none) [3, 7, 90])).1⟩

end Ending

end TCPConnection

end OpenCam.Android
