import OpenCam.Interaction.Machine

/-!
`receiver.cpp` and `ffmpeginterrupt.h`: the controlling thread that starts and stops a
receiver, and its worker. Every atomic load or store is a step, and so is every call of FFmpeg;
the clock is the system's and may be set.
-/

namespace OpenCam.Windows.RTSP

open Interaction

section Model

def TIMEOUT_MS : Int := 3000

/-- `FFmpegInterrupt::State`. -/
structure InterruptState where
  lastActivityTime : Int
  stopRequested : Bool
deriving DecidableEq, Repr

/-- `FFmpegInterrupt::Callback` at a time. -/
def callback (state : InterruptState) (now : Int) : Int :=
  if state.stopRequested then 1
  else if now - state.lastActivityTime > TIMEOUT_MS then 1
  else 0

/-- The next step of the controlling thread. -/
inductive Controller where
  | idle
  -- `Start`
  | startCheck
  | startRunning
  | startThread
  -- `Stop`
  | stopCheck
  | stopRunning
  | stopRequest
  | stopJoin
deriving DecidableEq, Repr

/-- The next step of the worker. -/
inductive Worker where
  | absent
  -- `WorkerFunc`
  | checkRunning
  -- `OpenConnection`
  | allocContext
  | clearStop
  | activityBeforeOpen
  | openInput
  | activityAfterOpen
  -- `Loop`
  | findVideoStream
  | checkReading
  | activityBeforeRead
  | readFrame
  | activityAfterRead
  | handlePacket
  | cleanUp
  -- `WorkerFunc`, back from `Loop`
  | checkRetry
  | sleep
  | finished
deriving DecidableEq, Repr

structure Receiver where
  isRunning : Bool
  state : InterruptState
  clock : Int
  controller : Controller
  worker : Worker
deriving DecidableEq, Repr

inductive ReceiverAction where
  | start
  | stop
  | controller
  | worker (outcome : Bool)
  | tick (clock : Int)
deriving DecidableEq, Repr

namespace Receiver

variable (receiver : Receiver)

/-- `lastActivityTime = GetTimeMs()`, and on to the next step. -/
def noteActivity (next : Worker) : Receiver :=
  { receiver with
    state := { receiver.state with lastActivityTime := receiver.clock }
    worker := next }

def controllerStep : Option Receiver :=
  match receiver.controller with
  | .idle => none
  | .startCheck =>
      some { receiver with controller := if receiver.isRunning then .idle else .startRunning }
  | .startRunning => some { receiver with isRunning := true, controller := .startThread }
  | .startThread => some { receiver with controller := .idle, worker := .checkRunning }
  | .stopCheck =>
      some { receiver with controller := if receiver.isRunning then .stopRunning else .idle }
  | .stopRunning => some { receiver with isRunning := false, controller := .stopRequest }
  | .stopRequest => some { receiver with
      state := { receiver.state with stopRequested := true }
      controller := .stopJoin }
  | .stopJoin =>
      if receiver.worker = .finished then
        some { receiver with controller := .idle, worker := .absent }
      else none

/-- The outcome is that of the call of FFmpeg. -/
def workerStep (outcome : Bool) : Option Receiver :=
  match receiver.worker with
  | .absent => none
  | .checkRunning =>
      some { receiver with worker := if receiver.isRunning then .allocContext else .finished }
  | .allocContext => some { receiver with worker := .clearStop }
  | .clearStop => some { receiver with
      state := { receiver.state with stopRequested := false }
      worker := .activityBeforeOpen }
  | .activityBeforeOpen => some (receiver.noteActivity .openInput)
  | .openInput =>
      some { receiver with worker := if outcome then .activityAfterOpen else .checkRetry }
  | .activityAfterOpen => some (receiver.noteActivity .findVideoStream)
  | .findVideoStream =>
      some { receiver with worker := if outcome then .checkReading else .checkRetry }
  | .checkReading =>
      some { receiver with worker := if receiver.isRunning then .activityBeforeRead else .cleanUp }
  | .activityBeforeRead => some (receiver.noteActivity .readFrame)
  | .readFrame =>
      some { receiver with worker := if outcome then .activityAfterRead else .cleanUp }
  | .activityAfterRead => some (receiver.noteActivity .handlePacket)
  | .handlePacket => some { receiver with worker := .checkReading }
  | .cleanUp => some { receiver with worker := .checkRetry }
  | .checkRetry =>
      some { receiver with worker := if receiver.isRunning then .sleep else .checkRunning }
  | .sleep => some { receiver with worker := .checkRunning }
  | .finished => none

def step : ReceiverAction → Option Receiver
  | .start =>
      if receiver.controller = .idle then some { receiver with controller := .startCheck } else none
  | .stop =>
      if receiver.controller = .idle then some { receiver with controller := .stopCheck } else none
  | .controller => receiver.controllerStep
  | .worker outcome => receiver.workerStep outcome
  | .tick clock => some { receiver with clock := clock }

end Receiver

/-- A receiver from its constructor on, which leaves the interrupt state as it is. -/
def receiverMachine : Machine Receiver ReceiverAction where
  initial := fun receiver =>
    receiver.isRunning = false ∧ receiver.controller = .idle ∧ receiver.worker = .absent
  step := fun receiver action next => receiver.step action = some next

end Model

section Stopping

/-- From the store of `Stop` until the worker has finished, FFmpeg is interrupted. -/
def Receiver.Interrupted (receiver : Receiver) : Prop :=
  receiver.controller = .stopJoin → receiver.worker ≠ .finished →
    callback receiver.state receiver.clock = 1

/-- The worker has found `isRunning` set and is about to clear the request in
`OpenConnection`. -/
def Worker.opening : Worker → Bool
  | .allocContext | .clearStop => true
  | _ => false

/-- `Stop` does not store its request while the worker is about to clear it. -/
def Receiver.RequestsOutsideOpening (receiver : Receiver) : ReceiverAction → Prop
  | .controller => receiver.controller = .stopRequest → receiver.worker.opening = false
  | _ => True

variable {receiver after : Receiver}

/-- `Stop` has cleared `isRunning` and not returned yet. -/
def Controller.stopping : Controller → Bool
  | .stopRequest | .stopJoin => true
  | _ => false

/-- `isRunning` is cleared before the request is stored, and a request that was stored
outside of `OpenConnection` stays. -/
structure Receiver.StopKept (receiver : Receiver) : Prop where
  stopped : receiver.controller.stopping = true → receiver.isRunning = false
  requested : receiver.controller = .stopJoin → receiver.state.stopRequested = true
  outside : receiver.controller = .stopJoin → receiver.worker.opening = false

/-- Without a stop under way there is nothing to keep. -/
theorem stopKept_of_other (h : receiver.controller.stopping = false) : receiver.StopKept := by
  have hjoin : receiver.controller ≠ .stopJoin := by
    intro hjoin
    rw [hjoin] at h
    cases h
  refine ⟨fun hstopping => ?_, fun hat => absurd hat hjoin, fun hat => absurd hat hjoin⟩
  rw [h] at hstopping
  cases hstopping

theorem stopKept_controller (h : receiver.StopKept)
    (hcondition : receiver.RequestsOutsideOpening .controller)
    (hstep : receiver.controllerStep = some after) : after.StopKept := by
  unfold Receiver.controllerStep at hstep
  split at hstep
  · cases hstep
  · cases hstep
    apply stopKept_of_other
    dsimp only
    split
    · rfl
    · rfl
  · cases hstep
    exact stopKept_of_other rfl
  · cases hstep
    exact stopKept_of_other rfl
  · cases hstep
    apply stopKept_of_other
    dsimp only
    split
    · rfl
    · rfl
  · cases hstep
    refine ⟨fun _ => rfl, ?_, ?_⟩
    · rintro ⟨⟩
    · rintro ⟨⟩
  · next hrequest =>
      cases hstep
      have hstopped := h.stopped (by rw [hrequest]; rfl)
      exact ⟨fun _ => hstopped, fun _ => rfl, fun _ => hcondition hrequest⟩
  · split at hstep
    · cases hstep
      exact stopKept_of_other rfl
    · cases hstep

/-- A step of the worker, which with `isRunning` cleared does not get to `OpenConnection`. -/
theorem workerStep_spec {outcome : Bool} (hstep : receiver.workerStep outcome = some after) :
    after.controller = receiver.controller ∧ after.isRunning = receiver.isRunning ∧
      (receiver.worker.opening = false → after.state.stopRequested = receiver.state.stopRequested ∧
        (receiver.isRunning = false → after.worker.opening = false)) := by
  unfold Receiver.workerStep at hstep
  split at hstep
  · cases hstep
  · cases hstep
    refine ⟨rfl, rfl, fun _ => ⟨rfl, fun hstopped => ?_⟩⟩
    dsimp only
    rw [hstopped]
    rfl
  · next hworker =>
      cases hstep
      refine ⟨rfl, rfl, fun hopening => ?_⟩
      rw [hworker] at hopening
      cases hopening
  · next hworker =>
      cases hstep
      refine ⟨rfl, rfl, fun hopening => ?_⟩
      rw [hworker] at hopening
      cases hopening
  · cases hstep
    exact ⟨rfl, rfl, fun _ => ⟨rfl, fun _ => rfl⟩⟩
  · cases hstep
    refine ⟨rfl, rfl, fun _ => ⟨rfl, fun _ => ?_⟩⟩
    dsimp only
    split
    · rfl
    · rfl
  · cases hstep
    exact ⟨rfl, rfl, fun _ => ⟨rfl, fun _ => rfl⟩⟩
  · cases hstep
    refine ⟨rfl, rfl, fun _ => ⟨rfl, fun _ => ?_⟩⟩
    dsimp only
    split
    · rfl
    · rfl
  · cases hstep
    refine ⟨rfl, rfl, fun _ => ⟨rfl, fun _ => ?_⟩⟩
    dsimp only
    split
    · rfl
    · rfl
  · cases hstep
    exact ⟨rfl, rfl, fun _ => ⟨rfl, fun _ => rfl⟩⟩
  · cases hstep
    refine ⟨rfl, rfl, fun _ => ⟨rfl, fun _ => ?_⟩⟩
    dsimp only
    split
    · rfl
    · rfl
  · cases hstep
    exact ⟨rfl, rfl, fun _ => ⟨rfl, fun _ => rfl⟩⟩
  · cases hstep
    exact ⟨rfl, rfl, fun _ => ⟨rfl, fun _ => rfl⟩⟩
  · cases hstep
    exact ⟨rfl, rfl, fun _ => ⟨rfl, fun _ => rfl⟩⟩
  · cases hstep
    refine ⟨rfl, rfl, fun _ => ⟨rfl, fun _ => ?_⟩⟩
    dsimp only
    split
    · rfl
    · rfl
  · cases hstep
    exact ⟨rfl, rfl, fun _ => ⟨rfl, fun _ => rfl⟩⟩
  · cases hstep

theorem stopKept_worker {outcome : Bool} (h : receiver.StopKept)
    (hstep : receiver.workerStep outcome = some after) : after.StopKept := by
  obtain ⟨hcontroller, hrunning, hkept⟩ := workerStep_spec hstep
  constructor
  · intro hstop
    rw [hcontroller] at hstop
    exact hrunning.trans (h.stopped hstop)
  · intro hjoin
    rw [hcontroller] at hjoin
    exact (hkept (h.outside hjoin)).1.trans (h.requested hjoin)
  · intro hjoin
    rw [hcontroller] at hjoin
    exact (hkept (h.outside hjoin)).2 (h.stopped (by rw [hjoin]; rfl))

theorem stopKept_step {action : ReceiverAction} (h : receiver.StopKept)
    (hcondition : receiver.RequestsOutsideOpening action)
    (hstep : receiver.step action = some after) : after.StopKept := by
  cases action with
  | start =>
      rw [Receiver.step] at hstep
      split at hstep
      · cases hstep
        exact stopKept_of_other rfl
      · cases hstep
  | stop =>
      rw [Receiver.step] at hstep
      split at hstep
      · cases hstep
        exact stopKept_of_other rfl
      · cases hstep
  | controller => exact stopKept_controller h hcondition hstep
  | worker outcome => exact stopKept_worker h hstep
  | tick clock =>
      cases hstep
      exact ⟨h.stopped, h.requested, h.outside⟩

/-- As long as `Stop` stores its request outside of the opening of a connection, FFmpeg is
interrupted until the worker has finished. -/
theorem stop_interrupts
    (h : (receiverMachine.restrict Receiver.RequestsOutsideOpening).Reachable receiver) :
    receiver.Interrupted := by
  have hinitial : ∀ state : Receiver,
      (receiverMachine.restrict Receiver.RequestsOutsideOpening).initial state →
        state.StopKept := by
    rintro state ⟨_, hidle, _⟩
    apply stopKept_of_other
    rw [hidle]
    rfl
  have hkept : ∀ (state : Receiver) action next, state.StopKept →
      (receiverMachine.restrict Receiver.RequestsOutsideOpening).step state action next →
        next.StopKept :=
    fun state action next hstate hstep => stopKept_step hstate hstep.1 hstep.2
  intro hjoin _
  have hrequested := (h.invariant hinitial hkept).requested hjoin
  rw [callback, if_pos hrequested]

/-- Where `Stop` stores its request while the worker is opening a connection, the request is
lost: the worker clears it and goes into FFmpeg. -/
theorem request_lost (hrequest : receiver.controller = .stopRequest)
    (hopening : receiver.worker.opening = true) :
    ∃ actions lost, Machine.run Receiver.step receiver actions = some lost ∧
      lost.worker = .openInput ∧ ¬ lost.Interrupted := by
  obtain ⟨isRunning, state, clock, controller, worker⟩ := receiver
  cases hrequest
  have hnot : ∀ lost : Receiver, lost.controller = .stopJoin → lost.worker = .openInput →
      lost.state.stopRequested = false → lost.state.lastActivityTime = lost.clock →
        ¬ lost.Interrupted := by
    intro lost hjoin hworker hrequested htime hinterrupted
    have hcallback := hinterrupted hjoin (by rw [hworker]; decide)
    rw [callback, hrequested, htime, Int.sub_self] at hcallback
    cases hcallback
  cases worker with
  | allocContext =>
      refine ⟨[.controller, .worker true, .worker true, .worker true], _, rfl, rfl, ?_⟩
      exact hnot _ rfl rfl rfl rfl
  | clearStop =>
      refine ⟨[.controller, .worker true, .worker true], _, rfl, rfl, ?_⟩
      exact hnot _ rfl rfl rfl rfl
  | _ => cases hopening

/-- A receiver is started, and its worker gets to the opening of its connection. -/
def startAndOpen : List ReceiverAction :=
  [.start, .controller, .controller, .controller, .worker true]

/-- `Stop` up to the join. -/
def stopUpToJoin : List ReceiverAction := [.stop, .controller, .controller, .controller]

def created : Receiver := ⟨false, ⟨0, false⟩, 0, .idle, .absent⟩

def stopping (stopRequested : Bool) (worker : Worker) : Receiver :=
  ⟨false, ⟨0, stopRequested⟩, 0, .stopJoin, worker⟩

theorem reachable_of_created {condition : Receiver → ReceiverAction → Prop} {receiver : Receiver}
    {actions : List ReceiverAction} (halong : Machine.Along Receiver.step condition created actions)
    (hrun : Machine.run Receiver.step created actions = some receiver) :
    (receiverMachine.restrict condition).Reachable receiver := by
  have hstart : ∀ {state : Receiver},
      ((Machine.ofStep created Receiver.step).restrict condition).Reachable state →
        (receiverMachine.restrict condition).Reachable state := by
    intro state hreachable
    induction hreachable with
    | initial hinitial =>
        rw [show _ = created from hinitial]
        exact .initial ⟨rfl, rfl, rfl⟩
    | step action _ hstep ih => exact .step action ih hstep
  exact hstart (Machine.Reachable.run (.initial rfl) halong hrun)

/-- The worker clears the request that was stored while it was opening its connection. -/
theorem stop_lost : ¬ ∀ receiver, receiverMachine.Reachable receiver → receiver.Interrupted := by
  intro h
  have hrun : Machine.run Receiver.step created
      (startAndOpen ++ stopUpToJoin ++ [.worker true, .worker true, .worker true]) =
        some (stopping false .openInput) := rfl
  have hreachable := (reachable_of_created
    (Machine.along_of_forall (fun _ _ => trivial) _ _) hrun).of_restrict
  have hcallback := h _ hreachable rfl (by decide)
  cases hcallback

/-- A receiver is stopped while FFmpeg opens its connection. -/
theorem stop_interrupts_open : (stopping true .openInput).Interrupted := by
  have hrun : Machine.run Receiver.step created
      (startAndOpen ++ [.worker true, .worker true, .worker true] ++ stopUpToJoin) =
        some (stopping true .openInput) := rfl
  apply stop_interrupts (reachable_of_created _ hrun)
  iterate 11 refine (Machine.along_cons rfl).mpr ⟨by first | trivial | (rintro ⟨⟩), ?_⟩
  exact (Machine.along_cons rfl).mpr ⟨fun _ => rfl, trivial⟩

end Stopping

end OpenCam.Windows.RTSP
