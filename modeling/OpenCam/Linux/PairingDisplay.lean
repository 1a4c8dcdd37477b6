import OpenCam.Control.Operations
import OpenCam.Interaction.Ownership

/-!
`qr.cpp`: the payload of the pairing code is written into a pipe to `qrencode`. Behind `fork` the
program goes on in two processes, each with its own descriptors; the run of either is one run of
this program. Where a signal kills a process, as that of a pipe without a reader does, its run
stands at an operation that is not answered.
-/

namespace OpenCam.Linux.PairingDisplay

open Octets Interaction

section Model

/-- What a process holds: its ends of the pipe, the read end as its standard input, and a child
that has not been waited for. -/
inductive Handle where
  | readEnd
  | writeEnd
  | standardInput
  | child
deriving DecidableEq, Repr

instance : Fintype Handle where
  elems := {.readEnd, .writeEnd, .standardInput, .child}
  complete := by
    intro handle
    cases handle <;> decide

inductive ForkResult where
  | failed
  | parent
  | child
deriving DecidableEq, Repr

/-- `write` takes no more than it was given. -/
inductive WriteResult (size : Nat) where
  | interrupted
  | failed
  | written (count : Nat) (hcount : count ≤ size)
deriving DecidableEq

def WriteResult.taken {size : Nat} : WriteResult size → Nat
  | .written count _ => count
  | _ => 0

inductive WaitResult where
  | failed
  | exited (status : Nat)
  | signaled
deriving DecidableEq, Repr

inductive DisplayOp where
  | pipe2
  | fork
  | close (handle : Handle)
  | dup2
  | execlp (command : List String)
  | write (bytes : Bytes)
  | kill
  | waitpid
deriving DecidableEq

/-- `execlp` answers whether the process has been replaced. -/
@[reducible] def DisplayOp.Res : DisplayOp → Type
  | pipe2 => Bool
  | fork => ForkResult
  | close _ => Unit
  | dup2 => Bool
  | execlp _ => Bool
  | write bytes => WriteResult bytes.length
  | kill => Unit
  | waitpid => WaitResult

abbrev DisplayProgram (α : Type) := Prog DisplayOp DisplayOp.Res α

abbrev DisplayEvent := Event DisplayOp DisplayOp.Res

abbrev system (op : DisplayOp) : DisplayProgram op.Res := Prog.perform op

/-- How a process leaves `displayPairingQr`. -/
inductive Departure where
  | returned (displayed : Bool)
  | replaced (command : List String)
  | exited (status : Nat)
deriving DecidableEq, Repr

def qrencode : List String := ["qrencode", "-t", "ANSIUTF8", "-o", "-"]

/-- The writing loop: whether all of the payload was written. -/
def writePayload (payload : Bytes) : Nat → Nat → DisplayProgram Bool
  | 0, _ => .unfinished
  | passes + 1, offset =>
      if offset < payload.length then do
        match ← system (.write (payload.drop offset)) with
        | .interrupted => writePayload payload passes offset
        | .failed => .ret false
        | .written count _ => writePayload payload passes (offset + count)
      else .ret true

/-- The child, which becomes `qrencode`. -/
def encode : DisplayProgram Departure := do
  system (.close .writeEnd)
  match ← system .dup2 with
  | false => .ret (.exited 127)
  | true => do
      system (.close .readEnd)
      match ← system (.execlp qrencode) with
      | true => .ret (.replaced qrencode)
      | false => .ret (.exited 127)

/-- The parent, behind the fork. -/
def feed (payload : Bytes) (passes : Nat) : DisplayProgram Departure := do
  system (.close .readEnd)
  match ← writePayload payload passes 0 with
  | false => do
      system (.close .writeEnd)
      system .kill
      let _ ← system .waitpid
      .ret (.returned false)
  | true => do
      system (.close .writeEnd)
      match ← system .waitpid with
      | .failed => .ret (.returned false)
      | .exited status => .ret (.returned (status == 0))
      | .signaled => .ret (.returned false)

def displayPairingQr (payload : Bytes) (passes : Nat) : DisplayProgram Departure := do
  match ← system .pipe2 with
  | false => .ret (.returned false)
  | true =>
      match ← system .fork with
      | .failed => do
          system (.close .readEnd)
          system (.close .writeEnd)
          .ret (.returned false)
      | .child => encode
      | .parent => feed payload passes

end Model

section Custody

/-- A command is started with the pipe as its input and no other end of it, and a child is waited
for with no end left open, so that it comes to the end of its input. -/
def displayDeal (waitFailed : Bool) : (op : DisplayOp) → op.Res → Deal Handle
  | .pipe2, made =>
      { absent := [.readEnd, .writeEnd], takes := if made then [.readEnd, .writeEnd] else [] }
  | .fork, result =>
      { needs := [.readEnd, .writeEnd], absent := [.child]
        takes := if result = .parent then [.child] else [] }
  | .close handle, _ => { needs := [handle], drops := [handle] }
  | .dup2, answer => { Deal.granted .standardInput answer with needs := [.readEnd] }
  | .execlp _, _ => { needs := [.standardInput], absent := [.readEnd, .writeEnd, .child] }
  | .write _, _ => { needs := [.writeEnd, .child], absent := [.readEnd] }
  | .kill, _ => { needs := [.child] }
  | .waitpid, result =>
      { needs := [.child], absent := if waitFailed then [.child] else [.readEnd, .writeEnd]
        drops := if result = .failed then [] else [.child] }

/-- Whether a wait has failed. -/
def displayPhase (waitFailed : Bool) : (op : DisplayOp) → op.Res → Bool
  | .waitpid, .failed => true
  | _, _ => waitFailed

def displayCustody : Custody DisplayOp DisplayOp.Res Handle Bool where
  deal := displayDeal
  phase := displayPhase
  fresh := by
    intro waitFailed op res thing hthing
    cases op with
    | pipe2 =>
        simp only [displayDeal] at hthing ⊢
        split at hthing
        · exact .inl hthing
        · cases hthing
    | fork =>
        simp only [displayDeal] at hthing ⊢
        split at hthing
        · exact .inl hthing
        · cases hthing
    | dup2 => exact .inl (Deal.mem_granted hthing)
    | _ => cases hthing

/-- How much of the payload was taken: what is written is what is left of it. -/
def payloadMonitor (payload : Bytes) : Monitor DisplayOp DisplayOp.Res Nat
  | offset, .write bytes, result =>
      if bytes = payload.drop offset then some (offset + result.taken) else none
  | offset, _, _ => some offset

end Custody

section Processes

variable {payload : Bytes} {offset : Nat} {held : Handle → Bool} {waitFailed : Bool}

def holding (readEnd writeEnd standardInput child : Bool) : Handle → Bool
  | .readEnd => readEnd
  | .writeEnd => writeEnd
  | .standardInput => standardInput
  | .child => child

/-- The handles with whether a wait has failed, and how much of the payload was taken. -/
abbrev DisplayState : Type := ((Handle → Bool) × Bool) × Nat

abbrev displayMonitor (payload : Bytes) : Monitor DisplayOp DisplayOp.Res DisplayState :=
  displayCustody.monitor.both (payloadMonitor payload)

abbrev KeepsDisplay {α : Type} (payload : Bytes) (post : α → DisplayState → Prop)
    (program : DisplayProgram α) (state : DisplayState) : Prop :=
  program.Follows (displayMonitor payload) post state

/-- How a process departs. No end of the pipe stays open, and a child stays behind only where the
wait for it failed; what is displayed was taken whole. The command gets the read end as its input
and nothing else. -/
def Departed (payload : Bytes) : Departure → DisplayState → Prop
  | .returned displayed, ((held, waitFailed), offset) =>
      held = holding false false false waitFailed ∧ offset ≤ payload.length ∧
        (displayed = true → offset = payload.length ∧ waitFailed = false)
  | .replaced command, ((held, _), offset) =>
      command = qrencode ∧ held = holding false false true false ∧ offset = 0
  | .exited status, ((held, _), offset) => status = 127 ∧ held .writeEnd = false ∧ offset = 0

/-- An operation that writes nothing, with what is held behind it. -/
theorem keeps_system {α : Type} {post : α → DisplayState → Prop} {op : DisplayOp}
    {next : op.Res → DisplayProgram α} (after : op.Res → Handle → Bool)
    (hready : ∀ res, (displayDeal waitFailed op res).Ready held)
    (hafter : ∀ res, (displayDeal waitFailed op res).after held = after res)
    (hphase : ∀ res, displayPhase waitFailed op res = waitFailed)
    (hpayload : ∀ res, payloadMonitor payload offset op res = some offset)
    (hnext : ∀ res, KeepsDisplay payload post (next res) ((after res, waitFailed), offset)) :
    KeepsDisplay payload post (system op >>= next) ((held, waitFailed), offset) := by
  intro res
  refine ⟨((after res, waitFailed), offset), ?_, hnext res⟩
  refine Monitor.both_eq_some.mpr ⟨?_, hpayload res⟩
  exact Custody.monitor_eq_some.mpr ⟨hready res, Prod.ext (hafter res).symm (hphase res).symm⟩

/-- The loop is left with the payload written, or with an error. By induction on its passes. -/
theorem keeps_writePayload (passes : Nat) (hoffset : offset ≤ payload.length) :
    KeepsDisplay payload (fun written state => state.1 = (holding false true false true, false) ∧
      state.2 ≤ payload.length ∧ (written = true → state.2 = payload.length))
      (writePayload payload passes offset) ((holding false true false true, false), offset) := by
  induction passes generalizing offset with
  | zero => trivial
  | succ passes ih =>
      rw [writePayload]
      split
      · intro result
        have hcustody : ∀ taken, displayCustody.monitor (holding false true false true, false)
            (.write (payload.drop offset)) taken = some (holding false true false true, false) := by
          intro taken
          refine Custody.monitor_eq_some.mpr ⟨by simp [Deal.Ready, displayCustody, displayDeal,
            holding], ?_⟩
          refine Prod.ext (funext fun handle => ?_) rfl
          simp [displayCustody, displayDeal, Deal.after]
        cases result with
        | interrupted =>
            refine ⟨((_, _), offset), Monitor.both_eq_some.mpr ⟨hcustody _, ?_⟩, ih hoffset⟩
            simp [payloadMonitor, WriteResult.taken]
        | failed =>
            refine ⟨((_, _), offset), Monitor.both_eq_some.mpr ⟨hcustody _, ?_⟩,
              rfl, hoffset, by rintro ⟨⟩⟩
            simp [payloadMonitor, WriteResult.taken]
        | written count hcount =>
            have hleft : offset + count ≤ payload.length := by
              rw [List.length_drop] at hcount
              omega
            refine ⟨((_, _), offset + count), Monitor.both_eq_some.mpr ⟨hcustody _, ?_⟩, ih hleft⟩
            simp [payloadMonitor, WriteResult.taken]
      · next hend => exact ⟨rfl, hoffset, fun _ => by omega⟩

theorem keeps_encode :
    KeepsDisplay payload (Departed payload) encode ((holding true true false false, false), 0) := by
  refine keeps_system (fun _ => holding true false false false) (by decide) (by decide)
    (fun _ => rfl) (fun _ => rfl) fun _ => ?_
  refine keeps_system (fun answer => holding true false answer false) (by decide) (by decide)
    (fun _ => rfl) (fun _ => rfl) fun answer => ?_
  cases answer with
  | false => exact ⟨rfl, rfl, rfl⟩
  | true =>
      refine keeps_system (fun _ => holding false false true false) (by decide)
        (by decide) (fun _ => rfl) (fun _ => rfl) fun _ => ?_
      refine keeps_system (fun _ => holding false false true false) (by decide) (by decide)
        (fun _ => rfl) (fun _ => rfl) fun answer => ?_
      cases answer with
      | false => exact ⟨rfl, rfl, rfl⟩
      | true => exact ⟨rfl, rfl, rfl⟩

/-- The child is waited for with no end of the pipe open. -/
theorem keeps_waitpid {post : Departure → DisplayState → Prop}
    {next : WaitResult → DisplayProgram Departure}
    (hfailed : KeepsDisplay payload post (next .failed)
      ((holding false false false true, true), offset))
    (hwaited : ∀ result, result ≠ .failed → KeepsDisplay payload post (next result)
      ((holding false false false false, false), offset)) :
    KeepsDisplay payload post (system .waitpid >>= next)
      ((holding false false false true, false), offset) := by
  intro result
  have hready : (displayDeal false .waitpid result).Ready (holding false false false true) := by
    simp [Deal.Ready, displayDeal, holding]
  cases result with
  | failed =>
      refine ⟨((_, true), offset), Monitor.both_eq_some.mpr ⟨?_, rfl⟩, hfailed⟩
      refine Custody.monitor_eq_some.mpr ⟨hready, Prod.ext ?_ rfl⟩
      funext handle
      cases handle <;> rfl
  | exited status =>
      refine ⟨((_, false), offset), Monitor.both_eq_some.mpr ⟨?_, rfl⟩,
        hwaited (.exited status) (by rintro ⟨⟩)⟩
      refine Custody.monitor_eq_some.mpr ⟨hready, Prod.ext ?_ rfl⟩
      funext handle
      cases handle <;> rfl
  | signaled =>
      refine ⟨((_, false), offset), Monitor.both_eq_some.mpr ⟨?_, rfl⟩,
        hwaited .signaled (by rintro ⟨⟩)⟩
      refine Custody.monitor_eq_some.mpr ⟨hready, Prod.ext ?_ rfl⟩
      funext handle
      cases handle <;> rfl

theorem keeps_feed (passes : Nat) :
    KeepsDisplay payload (Departed payload) (feed payload passes)
      ((holding true true false true, false), 0) := by
  refine keeps_system (fun _ => holding false true false true) (by decide) (by decide)
    (fun _ => rfl) (fun _ => rfl) fun _ => ?_
  refine (keeps_writePayload passes (Nat.zero_le _)).bind ?_
  rintro written ⟨_, offset⟩ ⟨rfl, hoffset, hwritten⟩
  cases written with
  | false =>
      refine keeps_system (fun _ => holding false false false true) (by decide)
        (by decide) (fun _ => rfl) (fun _ => rfl) fun _ => ?_
      refine keeps_system (fun _ => holding false false false true) (by decide)
        (by decide) (fun _ => rfl) (fun _ => rfl) fun _ => ?_
      exact keeps_waitpid ⟨rfl, hoffset, by rintro ⟨⟩⟩ fun _ _ => ⟨rfl, hoffset, by rintro ⟨⟩⟩
  | true =>
      refine keeps_system (fun _ => holding false false false true) (by decide)
        (by decide) (fun _ => rfl) (fun _ => rfl) fun _ => ?_
      refine keeps_waitpid ⟨rfl, hoffset, by rintro ⟨⟩⟩ fun result hresult => ?_
      cases result with
      | failed => exact absurd rfl hresult
      | exited status => exact ⟨rfl, hoffset, fun _ => ⟨hwritten rfl, rfl⟩⟩
      | signaled => exact ⟨rfl, hoffset, by rintro ⟨⟩⟩

/-- Nothing is held before the call. -/
def noHandles : (Handle → Bool) × Bool := (holding false false false false, false)

theorem keeps_displayPairingQr (passes : Nat) :
    KeepsDisplay payload (Departed payload) (displayPairingQr payload passes) (noHandles, 0) := by
  refine keeps_system (fun made => holding made made false false) (by decide) (by decide)
    (fun _ => rfl) (fun _ => rfl) fun made => ?_
  cases made with
  | false => exact ⟨rfl, Nat.zero_le _, by rintro ⟨⟩⟩
  | true =>
      refine keeps_system (fun result => holding true true false (decide (result = .parent)))
        ?_ ?_ (fun _ => rfl) (fun _ => rfl) fun result => ?_
      · intro result
        cases result <;> decide
      · intro result
        cases result <;> decide
      · cases result with
        | failed =>
            refine keeps_system (fun _ => holding false true false false) (by decide)
              (by decide) (fun _ => rfl) (fun _ => rfl) fun _ => ?_
            refine keeps_system (fun _ => holding false false false false) (by decide)
              (by decide) (fun _ => rfl) (fun _ => rfl) fun _ => ?_
            exact ⟨rfl, Nat.zero_le _, by rintro ⟨⟩⟩
        | child => exact keeps_encode
        | parent => exact keeps_feed passes

end Processes

section Runs

variable {payload : Bytes} {passes : Nat} {trace : List DisplayEvent}
  {stop : DisplayProgram Departure}

/-- What the pipe has taken. -/
def DisplayEvent.taken : DisplayEvent → Bytes
  | ⟨.write bytes, result⟩ => bytes.take result.taken
  | _ => []

def piped (trace : List DisplayEvent) : Bytes := trace.flatMap DisplayEvent.taken

/-- What the pipe has taken is the next piece of the payload. By induction on the trace. -/
theorem piped_of_after {offset after : Nat}
    (h : (payloadMonitor payload).after offset trace = some after) :
    payload.take offset ++ piped trace = payload.take after := by
  induction trace generalizing offset with
  | nil =>
      obtain rfl := Option.some.inj h
      exact List.append_nil _
  | cons event rest ih =>
      obtain ⟨op, res⟩ := event
      obtain ⟨middle, hmiddle, hrest⟩ := Option.bind_eq_some_iff.mp h
      have hstep : payload.take offset ++ DisplayEvent.taken ⟨op, res⟩ = payload.take middle := by
        cases op with
        | write bytes =>
            change (if bytes = payload.drop offset then some (offset + WriteResult.taken res)
              else none) = some middle at hmiddle
            split at hmiddle
            · next hbytes =>
                subst hbytes
                obtain rfl := Option.some.inj hmiddle
                exact List.take_add.symm
            · cases hmiddle
        | _ =>
            obtain rfl := Option.some.inj hmiddle
            exact List.append_nil _
      rw [piped, List.flatMap_cons, ← List.append_assoc, hstep]
      exact ih hrest

/-- The payload is on no command line. -/
def DisplayOp.Encodes : DisplayOp → Prop
  | .execlp command => command = qrencode
  | _ => True

theorem writePayload_encodes (payload : Bytes) (passes offset : Nat) :
    (writePayload payload passes offset).Performs DisplayOp.Encodes := by
  induction passes generalizing offset with
  | zero => trivial
  | succ passes ih =>
      rw [writePayload]
      split
      · refine Prog.performs_perform_bind trivial fun result => ?_
        cases result with
        | interrupted => exact ih offset
        | failed => trivial
        | written count hcount => exact ih (offset + count)
      · trivial

theorem displayPairingQr_encodes (payload : Bytes) (passes : Nat) :
    (displayPairingQr payload passes).Performs DisplayOp.Encodes := by
  refine Prog.performs_perform_bind trivial fun made => ?_
  cases made with
  | false => trivial
  | true =>
      refine Prog.performs_perform_bind trivial fun result => ?_
      cases result with
      | failed => exact ⟨trivial, fun _ => ⟨trivial, fun _ => trivial⟩⟩
      | child =>
          refine ⟨trivial, fun _ => ⟨trivial, fun answer => ?_⟩⟩
          cases answer with
          | false => trivial
          | true =>
              refine ⟨trivial, fun _ => ⟨rfl, fun replaced => ?_⟩⟩
              cases replaced <;> trivial
      | parent =>
          refine ⟨trivial, fun _ => (writePayload_encodes payload passes 0).bind fun written => ?_⟩
          cases written with
          | false => exact ⟨trivial, fun _ => ⟨trivial, fun _ => ⟨trivial, fun _ => trivial⟩⟩⟩
          | true =>
              refine ⟨trivial, fun _ => ⟨trivial, fun result => ?_⟩⟩
              cases result <;> trivial

/-- Both processes, whatever the system answers: what a process takes it gives back or holds; what
the pipe has taken is a piece from the front of the payload, and all of it when the code is
displayed; the only command is `qrencode` with its fixed arguments. A call that returns leaves no
end of the pipe open, and a child behind only where the wait for it failed. -/
theorem payload_displayed (run : Runs (displayPairingQr payload passes) trace stop) :
    ∃ held waitFailed offset,
      displayCustody.monitor.after noHandles trace = some (held, waitFailed) ∧
      (∀ handle, displayCustody.taken handle false trace =
        displayCustody.givenBack handle noHandles trace + (held handle).toNat) ∧
      piped trace = payload.take offset ∧
      (∀ event ∈ trace, event.op.Encodes) ∧
      (∀ departure, stop = .ret departure →
        Departed payload departure ((held, waitFailed), offset)) ∧
      (stop = .ret (.returned true) → piped trace = payload) := by
  obtain ⟨⟨⟨held, waitFailed⟩, offset⟩, hafter, hstop⟩ :=
    (@keeps_displayPairingQr payload passes).along run
  obtain ⟨hcustody, hpayload⟩ := Monitor.after_both hafter
  have hpiped : piped trace = payload.take offset := piped_of_after hpayload
  have hdeparted : ∀ departure, stop = .ret departure →
      Departed payload departure ((held, waitFailed), offset) := by
    rintro departure rfl
    exact hstop
  refine ⟨held, waitFailed, offset, hcustody, fun handle => ?_, hpiped,
    (run.performs (displayPairingQr_encodes payload passes)).1, hdeparted, fun hreturned => ?_⟩
  · have hbalance := Custody.balance hcustody handle
    cases handle <;> exact hbalance
  · obtain ⟨_, _, hdisplayed⟩ := hdeparted _ hreturned
    rw [hpiped, (hdisplayed rfl).1, List.take_length]

/-- The payload is taken in two pieces, with an interruption between them. -/
theorem payload_displayed_sample : ∃ trace, Runs (displayPairingQr [1, 2, 3] 4) trace
    (.ret (.returned true)) ∧ trace.length = 8 ∧ piped trace = [1, 2, 3] := by
  have hrun : Runs (displayPairingQr [1, 2, 3] 4) [⟨.pipe2, true⟩, ⟨.fork, .parent⟩,
      ⟨.close .readEnd, ()⟩, ⟨.write [1, 2, 3], .written 2 (by decide)⟩,
      ⟨.write [3], .interrupted⟩, ⟨.write [3], .written 1 (by decide)⟩,
      ⟨.close .writeEnd, ()⟩, ⟨.waitpid, .exited 0⟩] (.ret (.returned true)) :=
    .step (.step (.step (.step (.step (.step (.step (.step (.here _))))))))
  obtain ⟨_, _, _, _, _, _, _, _, hpiped⟩ := payload_displayed hrun
  exact ⟨_, hrun, rfl, hpiped rfl⟩

end Runs

end OpenCam.Linux.PairingDisplay
