import OpenCam.Interaction.Monitor
import OpenCam.Linux.MediaPipeline

/-!
The lifecycle of a media pipeline over all interleavings of its controller with
its workers. A worker is held to a protocol of its own accesses to the shared
state, and the invariant ties the shared state to how far the worker that can be
joined has come in it.
-/

namespace OpenCam.Linux.MediaPipeline

open Octets Interaction Control

section Protocol

/-- How far a worker has come in reporting that it failed. -/
inductive Report where
  | pending
  | explained
  | failed
deriving DecidableEq

/-- What the protocol remembers of a worker's accesses. -/
structure Account where
  stopSeen : Bool
  report : Report
deriving DecidableEq

def Account.created : Account := ⟨false, .pending⟩

def Account.see (account : Account) (stop : Bool) : Account :=
  { account with stopSeen := account.stopSeen || stop }

/-- A worker fails once, with a text in front of the state, and stores nothing
else than `Running`. -/
def workerMonitor : Monitor WorkerOp WorkerOp.Res Account
  | account, .loadStopRequested, answer => some (account.see answer)
  | account, .storeErrorMessage message, _ =>
      if account.report = .pending ∧ message ≠ "" then some { account with report := .explained }
      else none
  | account, .storeState state, _ =>
      if account.report = .pending ∧ state = .running then some account
      else if account.report = .explained ∧ state = .failed then
        some { account with report := .failed }
      else none
  | account, _, _ => some account

/-- A worker that returns has failed or has been asked to stop. -/
def Accounted (_ : Unit) (account : Account) : Prop :=
  account.report = .failed ∨ account.report = .pending ∧ account.stopSeen = true

abbrev WorkerFollows {α : Type} (post : α → Account → Prop) (program : Worker α)
    (account : Account) : Prop :=
  program.Follows workerMonitor post account

/-- An operation that stores nothing. -/
def WorkerOp.Reads : WorkerOp → Prop
  | .storeState _ | .storeErrorMessage _ => False
  | _ => True

variable {α : Type} {account : Account} {passes : Nat}

/-- What reading leaves of an account. -/
structure Account.Kept (account after : Account) : Prop where
  report : after.report = account.report
  stopSeen : account.stopSeen = true → after.stopSeen = true

theorem follows_of_reads {program : Worker α} (hreads : program.Performs WorkerOp.Reads) :
    WorkerFollows (fun _ after => account.Kept after) program account := by
  refine Prog.follows_of_performs ?_ hreads ⟨rfl, id⟩
  intro state op res hkept hop
  cases op with
  | storeState stored => exact hop.elim
  | storeErrorMessage message => exact hop.elim
  | loadStopRequested =>
      refine ⟨_, rfl, hkept.report, fun hseen => ?_⟩
      simp [Account.see, hkept.stopSeen hseen]
  | _ => exact ⟨state, rfl, hkept⟩

theorem Accounted.kept {after : Account} (h : Accounted () account) (hkept : account.Kept after) :
    Accounted () after :=
  h.imp hkept.report.trans fun hstopped => ⟨hkept.report.trans hstopped.1, hkept.stopSeen hstopped.2⟩

theorem follows_setFailure (hpending : account.report = .pending) {message : String}
    (hmessage : message ≠ "") :
    WorkerFollows (fun _ after => after.report = .failed) (setFailure message) account := by
  intro _
  refine ⟨{ account with report := .explained }, by simp [workerMonitor, hpending, hmessage], ?_⟩
  intro _
  exact ⟨{ account with report := .failed }, by simp [workerMonitor], rfl⟩

theorem follows_failure (hpending : account.report = .pending) {message : String}
    (hmessage : message ≠ "") : WorkerFollows Accounted (setFailure message) account :=
  (follows_setFailure hpending hmessage).mono fun _ _ hfailed => .inl hfailed

theorem follows_load {post : α → Account → Prop} {next : Bool → Worker α}
    (hnext : ∀ stop, WorkerFollows post (next stop) (account.see stop)) :
    WorkerFollows post (request .loadStopRequested >>= next) account :=
  fun stop => ⟨account.see stop, rfl, hnext stop⟩

theorem reads_request {op : WorkerOp} (hop : op.Reads) :
    (request op).Performs WorkerOp.Reads :=
  ⟨hop, fun _ => trivial⟩

theorem reads_releaseAll (resources : List Resource) :
    (releaseAll resources).Performs WorkerOp.Reads := by
  induction resources with
  | nil => trivial
  | cons resource resources ih => exact ⟨trivial, fun _ => ih⟩

theorem reads_ffmpegError (code : Int) : (ffmpegError code).Performs WorkerOp.Reads := by
  refine ⟨trivial, fun text => ?_⟩
  cases text <;> trivial

end Protocol

section Loops

variable {layout : OutputLayout} {passes : Nat}

theorem reads_ioctlRetry {α : Type} {ioctl : Worker (IoctlResult α)}
    (hioctl : ioctl.Performs WorkerOp.Reads) (passes : Nat) :
    (ioctlRetry ioctl passes).Performs WorkerOp.Reads := by
  induction passes with
  | zero => trivial
  | succ passes ih =>
      refine hioctl.bind fun answer => ?_
      cases answer with
      | done value => trivial
      | interrupted => exact ih
      | failed => trivial

theorem reads_writePacked (packed : Bytes) (error : String) (passes : Nat) :
    (writePacked packed error passes).Performs WorkerOp.Reads := by
  induction passes with
  | zero => trivial
  | succ passes ih =>
      rw [writePacked]
      refine Prog.performs_perform_bind trivial fun stop => ?_
      split
      · trivial
      · refine Prog.performs_perform_bind trivial fun answer => ?_
        cases answer with
        | written count =>
            dsimp only
            split <;> trivial
        | interrupted => exact ih
        | wouldBlock =>
            refine Prog.performs_perform_bind trivial fun ready => ?_
            split
            · trivial
            · exact ih
        | failed => trivial

theorem reads_discardFrame (error : String) :
    (discardFrame error).Performs WorkerOp.Reads :=
  Prog.performs_perform_bind trivial fun _ => trivial

theorem reads_processFrame (frame : AVFrame) (error : String) :
    (processFrame layout passes frame error).Performs WorkerOp.Reads := by
  rw [processFrame]
  refine Prog.performs_perform_bind trivial fun scaler => ?_
  split
  · exact reads_discardFrame _
  · refine Prog.performs_perform_bind trivial fun writable => ?_
    split
    · exact reads_discardFrame _
    · refine Prog.performs_perform_bind trivial fun scaled => ?_
      dsimp only
      split
      · exact reads_discardFrame _
      · refine (reads_writePacked _ error passes).bind fun written => ?_
        refine Prog.performs_perform_bind trivial fun _ => ?_
        split
        · trivial
        · exact Prog.performs_perform_bind trivial fun _ => trivial

theorem reads_drainDecodedFrames (error : String) (fuel : Nat) :
    (drainDecodedFrames layout passes error fuel).Performs WorkerOp.Reads := by
  induction fuel generalizing error with
  | zero => trivial
  | succ fuel ih =>
      rw [drainDecodedFrames]
      refine Prog.performs_perform_bind trivial fun received => ?_
      dsimp only
      split
      · trivial
      · split
        · trivial
        · refine (reads_processFrame received.2 error).bind fun outcome => ?_
          obtain ⟨drained, error⟩ := outcome
          cases drained with
          | some drained => trivial
          | none => exact ih error

theorem reads_sendPacket (packet : AVPacket) (error : String) (fuel : Nat) :
    (sendPacket layout passes packet error fuel).Performs WorkerOp.Reads := by
  induction fuel generalizing error with
  | zero => trivial
  | succ fuel ih =>
      rw [sendPacket]
      refine Prog.performs_perform_bind trivial fun result => ?_
      split
      · refine (reads_drainDecodedFrames error passes).bind fun drained => ?_
        dsimp only
        split
        · exact ih _
        · trivial
      · trivial

theorem reads_processPacket (packet : AVPacket) (error : String) :
    (processPacket layout passes packet error).Performs WorkerOp.Reads := by
  rw [processPacket]
  refine (reads_sendPacket packet error passes).bind fun sent => ?_
  dsimp only
  split
  · split
    · trivial
    · exact reads_drainDecodedFrames _ passes
  · trivial

theorem reads_takePacket (videoStreamIndex : Nat) (packet : AVPacket) (error : String) :
    (takePacket layout passes videoStreamIndex packet error).Performs WorkerOp.Reads := by
  rw [takePacket]
  split
  · exact reads_processPacket packet error
  · trivial

theorem reads_readPackets (videoStreamIndex : Nat) (error : String) (fuel : Nat) :
    (readPackets layout passes videoStreamIndex error fuel).Performs WorkerOp.Reads := by
  induction fuel generalizing error with
  | zero => trivial
  | succ fuel ih =>
      rw [readPackets]
      refine Prog.performs_perform_bind trivial fun stop => ?_
      split
      · trivial
      · refine Prog.performs_perform_bind trivial fun read => ?_
        dsimp only
        split
        · refine Prog.performs_perform_bind trivial fun stopped => ?_
          split
          · trivial
          · split
            · trivial
            · exact (reads_ffmpegError _).bind fun _ => trivial
        · refine (reads_takePacket videoStreamIndex read.2 error).bind fun taken => ?_
          refine Prog.performs_perform_bind trivial fun _ => ?_
          split
          · exact ih _
          · trivial

end Loops

section Run

variable {account : Account} {passes : Nat}

/-- What is accounted for stays so while the worker gives its resources back. -/
theorem follows_releaseAll (h : Accounted () account) (resources : List Resource) :
    WorkerFollows Accounted (releaseAll resources) account :=
  (follows_of_reads (reads_releaseAll resources)).mono fun _ _ hkept => h.kept hkept

theorem follows_abandon (hpending : account.report = .pending) {message : String}
    (hmessage : message ≠ "") (resources : List Resource) :
    WorkerFollows Accounted (abandon message resources) account :=
  (follows_setFailure hpending hmessage).bind fun _ _ hfailed =>
    follows_releaseAll (.inl hfailed) resources

theorem follows_failUnlessStopped (hpending : account.report = .pending) {message : String}
    (hmessage : message ≠ "") (code : Int) :
    WorkerFollows Accounted (failUnlessStopped message code) account := by
  rw [failUnlessStopped]
  refine follows_load fun stop => ?_
  cases stop with
  | true => exact .inr ⟨hpending, by simp [Account.see]⟩
  | false =>
      refine (follows_of_reads (reads_ffmpegError code)).bind fun text after hkept => ?_
      refine follows_failure (hkept.report.trans hpending) fun hempty => ?_
      exact hmessage (by simpa using congrArg String.toList hempty)

theorem follows_abandonUnlessStopped (hpending : account.report = .pending) {message : String}
    (hmessage : message ≠ "") (code : Int) (resources : List Resource) :
    WorkerFollows Accounted (abandonUnlessStopped message code resources) account :=
  (follows_failUnlessStopped hpending hmessage code).bind fun _ _ haccounted =>
    follows_releaseAll haccounted resources

/-- Every refusal of a format has a text. -/
theorem outputLayout_error {format : V4L2PixFormat} {error : String}
    (h : outputLayout format = .error error) : error ≠ "" := by
  unfold outputLayout at h
  dsimp only at h
  split at h
  · cases h
    decide
  · split at h
    · cases h
      decide
    · split at h
      · cases h
        decide
      · cases h

/-- Whatever has happened so far was reading, and a refusal comes with a text. -/
def Configured (account : Account) (result : Except String OutputLayout) (after : Account) : Prop :=
  account.Kept after ∧ ∀ error, result = .error error → error ≠ ""

theorem Configured.refused {after : Account} (hkept : account.Kept after) {text : String}
    (htext : text ≠ "") : Configured account (.error text) after := by
  refine ⟨hkept, ?_⟩
  rintro _ ⟨⟩
  exact htext

theorem Account.Kept.trans {first second third : Account} (h : first.Kept second)
    (hnext : second.Kept third) : first.Kept third :=
  ⟨hnext.report.trans h.report, fun hseen => hnext.stopSeen (h.stopSeen hseen)⟩

theorem follows_configureV4L2Output :
    WorkerFollows (Configured account) (configureV4L2Output passes) account := by
  have hioctl : ∀ {α : Type} {ioctl : Worker (IoctlResult α)} {before : Account},
      ioctl.Performs WorkerOp.Reads →
      WorkerFollows (fun _ after => before.Kept after) (ioctlRetry ioctl passes) before :=
    fun hreads => follows_of_reads (reads_ioctlRetry hreads passes)
  rw [configureV4L2Output]
  refine (hioctl (@reads_request .queryCapability trivial)).bind
    fun capability first hfirst => ?_
  cases capability with
  | none => exact .refused hfirst (by decide)
  | some capability =>
      dsimp only
      split
      · exact .refused hfirst (by decide)
      · refine (hioctl (@reads_request (.setFormat requestedFormat) trivial)).bind
          fun format second hsecond => ?_
        cases format with
        | none => exact .refused (hfirst.trans hsecond) (by decide)
        | some format =>
            dsimp only
            split
            · next error herror =>
                exact .refused (hfirst.trans hsecond) (outputLayout_error herror)
            · next layout hlayout =>
                refine (hioctl (@reads_request (.setParameters 1 OUTPUT_FPS) trivial)).bind
                  fun parameters third hthird => ?_
                exact ⟨(hfirst.trans hsecond).trans hthird, by rintro _ ⟨⟩⟩

theorem reads_openDecoder (stream : Nat) : (openDecoder stream).Performs WorkerOp.Reads := by
  rw [openDecoder]
  refine Prog.performs_perform_bind trivial fun decoder => ?_
  split
  · trivial
  · refine Prog.performs_perform_bind trivial fun context => ?_
    split
    · trivial
    · refine Prog.performs_perform_bind trivial fun parameters => ?_
      split
      · trivial
      · exact Prog.performs_perform_bind trivial fun _ => trivial

theorem follows_finish (hpending : account.report = .pending) (successful : Bool)
    (processingError : String) :
    WorkerFollows Accounted (finish successful processingError) account := by
  rw [finish]
  refine follows_load fun stop => ?_
  have hstop : (account.see stop).report = .pending := hpending
  split
  · refine follows_failure hstop ?_
    split
    · decide
    · next hempty => simpa using hempty
  · refine follows_load fun again => ?_
    cases again with
    | true => exact .inr ⟨hpending, by simp [Account.see]⟩
    | false =>
        have hagain : ((account.see stop).see false).report = .pending := hpending
        exact follows_failure hagain (by decide)

theorem follows_process (hpending : account.report = .pending) (videoStreamIndex : Nat)
    (layout : OutputLayout) :
    WorkerFollows Accounted (process videoStreamIndex layout passes) account := by
  rw [process]
  intro _
  refine ⟨account, by simp [workerMonitor, hpending], ?_⟩
  refine (follows_of_reads (reads_readPackets videoStreamIndex "" passes)).bind
    fun outcome first hfirst => ?_
  refine (follows_of_reads (reads_releaseAll _)).bind fun _ second hsecond => ?_
  exact follows_finish ((hfirst.trans hsecond).report.trans hpending) _ _

theorem follows_prepareFrames (hpending : account.report = .pending) (videoStreamIndex : Nat)
    (layout : OutputLayout) :
    WorkerFollows Accounted (prepareFrames videoStreamIndex layout passes) account := by
  rw [prepareFrames]
  refine Prog.follows_perform_bind (fun _ => rfl) fun decodedFrame => ?_
  refine Prog.follows_perform_bind (fun _ => rfl) fun convertedFrame => ?_
  refine Prog.follows_perform_bind (fun _ => rfl) fun packet => ?_
  dsimp only
  split
  · exact follows_abandon hpending (by decide) _
  · refine Prog.follows_perform_bind (fun _ => rfl) fun buffer => ?_
    split
    · exact follows_abandon hpending (by decide) _
    · exact follows_process hpending videoStreamIndex layout

theorem follows_openOutput (hpending : account.report = .pending) (videoDevice : Bytes)
    (videoStreamIndex : Nat) :
    WorkerFollows Accounted (openOutput videoDevice videoStreamIndex passes) account := by
  rw [openOutput]
  refine (follows_of_reads (reads_openDecoder videoStreamIndex)).bind fun opened first hfirst => ?_
  have hfirstPending := hfirst.report.trans hpending
  split
  · exact follows_abandon hfirstPending (by decide) _
  · refine Prog.follows_perform_bind (fun _ => rfl) fun videoFd => ?_
    split
    · exact follows_abandon hfirstPending (by decide) _
    · refine follows_configureV4L2Output.bind fun result second hsecond => ?_
      have hsecondPending := hsecond.1.report.trans hfirstPending
      cases result with
      | error v4l2Error => exact follows_abandon hsecondPending (hsecond.2 _ rfl) _
      | ok layout => exact follows_prepareFrames hsecondPending videoStreamIndex layout

/-- Whatever FFmpeg, V4L2 and the stop flag do, a worker that returns has either
failed with a text or seen that it was asked to stop. -/
theorem follows_run (authenticatedRtspUrl videoDevice : Bytes) (passes : Nat) :
    WorkerFollows Accounted (run authenticatedRtspUrl videoDevice passes) .created := by
  have hpending : Account.created.report = .pending := rfl
  rw [run]
  refine Prog.follows_perform_bind (fun _ => rfl) fun network => ?_
  split
  · exact follows_failure hpending (by decide)
  · refine Prog.follows_perform_bind (fun _ => rfl) fun context => ?_
    split
    · exact follows_abandon hpending (by decide) _
    · refine Prog.follows_perform_bind (fun _ => rfl) fun opened => ?_
      dsimp only
      split
      · exact follows_abandonUnlessStopped hpending (by decide) _ _
      · refine Prog.follows_perform_bind (fun _ => rfl) fun found => ?_
        split
        · exact follows_abandonUnlessStopped hpending (by decide) _ _
        · split
          · exact follows_abandon hpending (by decide) _
          · exact follows_openOutput hpending videoDevice _

end Run

section Invariant

/-- A poll has answered `Failed` since the last successful start. -/
def FailureReported : List Call → Prop
  | [] => False
  | .state .failed :: _ => True
  | .start true :: _ => False
  | _ :: calls => FailureReported calls

/-- A `stop` has left this state, and no successful start has followed. -/
def LeftBehind : List Call → MediaPipelineState → Prop
  | [], _ => False
  | .stop left :: calls, state => state = left ∨ LeftBehind calls state
  | .start true :: _, _ => False
  | _ :: calls, state => LeftBehind calls state

/-- The texts that were asked for after a reported failure are not empty. -/
def Explained : List Call → Prop
  | [] => True
  | .errorMessage text :: calls => (FailureReported calls → text ≠ "") ∧ Explained calls
  | _ :: calls => Explained calls

/-- The shared state is where the worker that can be joined has left it. -/
structure Pipeline.Agrees (pipeline : Pipeline) (account : Account) : Prop where
  stopSeen : account.stopSeen = true → pipeline.stopRequested = true
  active : account.report ≠ .failed → pipeline.state = .starting ∨ pipeline.state = .running
  explained : account.report ≠ .pending → pipeline.errorMessage ≠ ""
  failed : account.report = .failed → pipeline.state = .failed

structure ThreadInvariant (pipeline : Pipeline) : Prop where
  returned : ∀ index worker, pipeline.workers[index]? = some worker →
    pipeline.worker ≠ some index → worker = .ret ()
  joinable : ∀ index, pipeline.worker = some index → ∃ worker account,
    pipeline.workers[index]? = some worker ∧ WorkerFollows Accounted worker account ∧
      pipeline.Agrees account

/-- A stop leaves a state that only a start changes. -/
def Pipeline.AtRest (pipeline : Pipeline) (left : MediaPipelineState) : Prop :=
  pipeline.state = left ∧ (left = .stopped ∨ left = .failed) ∧ pipeline.worker = none

/-- The controller is where no worker can be joined. -/
def Controller.Alone (controller : Controller) : Prop :=
  controller.Starting ∨ controller = .loadState ∨ controller = .storeStopped

structure PipelineInvariant (pipeline : Pipeline) : Prop extends ThreadInvariant pipeline where
  alone : pipeline.controller.Alone → pipeline.worker = none
  explained : pipeline.state = .failed →
    pipeline.errorMessage ≠ "" ∨ ∃ url device, pipeline.controller = .storeStarting url device
  creating : ∀ url device, pipeline.controller = .createWorker url device →
    pipeline.state = .starting
  storing : pipeline.controller = .storeStopped → pipeline.state ≠ .failed
  reported : FailureReported pipeline.calls →
    pipeline.controller.Starting ∨ pipeline.state = .failed
  texts : Explained pipeline.calls
  stopped : ∀ left, LeftBehind pipeline.calls left →
    pipeline.controller.Starting ∨ pipeline.AtRest left

variable {pipeline next : Pipeline}

theorem ThreadInvariant.of_none (hworker : pipeline.worker = none)
    (hreturned : ∀ worker ∈ pipeline.workers, worker = .ret ()) : ThreadInvariant pipeline where
  returned := fun _ worker hat _ => hreturned worker (List.mem_of_getElem? hat)
  joinable := by simp [hworker]

theorem ThreadInvariant.all_returned (h : ThreadInvariant pipeline)
    (hworker : pipeline.worker = none) : ∀ worker ∈ pipeline.workers, worker = .ret () := by
  intro worker hmem
  obtain ⟨index, hat⟩ := List.mem_iff_getElem?.mp hmem
  exact h.returned index worker hat (by simp [hworker])

/-- A worker that has not returned is the one that can be joined. -/
theorem ThreadInvariant.worker_eq (h : ThreadInvariant pipeline) {index : Nat}
    {worker : Worker Unit} (hat : pipeline.workers[index]? = some worker)
    (hlive : worker ≠ .ret ()) : pipeline.worker = some index := by
  by_contra hother
  exact hlive (h.returned index worker hat hother)

/-- The threads do not see where the controller is. -/
theorem ThreadInvariant.elsewhere (h : ThreadInvariant pipeline) (controller : Controller)
    (calls : List Call) :
    ThreadInvariant { pipeline with controller := controller, calls := calls } where
  returned := h.returned
  joinable := by
    intro index hworker
    obtain ⟨worker, account, hat, hfollows, hagrees⟩ := h.joinable index hworker
    exact ⟨worker, account, hat, hfollows, hagrees.stopSeen, hagrees.active, hagrees.explained,
      hagrees.failed⟩

/-- A call returns: the controller is outside of the object again. -/
theorem ThreadInvariant.answered (h : ThreadInvariant pipeline) {call : Call}
    (hexplained : pipeline.state = .failed → pipeline.errorMessage ≠ "")
    (hreported : FailureReported (call :: pipeline.calls) → pipeline.state = .failed)
    (htexts : Explained (call :: pipeline.calls))
    (hstopped : ∀ left, LeftBehind (call :: pipeline.calls) left → pipeline.AtRest left) :
    PipelineInvariant (pipeline.returned call) where
  toThreadInvariant := h.elsewhere .idle (call :: pipeline.calls)
  alone := by simp [Pipeline.returned, Controller.Alone, Controller.Starting]
  explained := fun hfailed => .inl (hexplained hfailed)
  creating := by simp [Pipeline.returned]
  storing := by simp [Pipeline.returned]
  reported := fun hreport => .inr (hreported hreport)
  texts := htexts
  stopped := fun left hleft => .inr (hstopped left hleft)

end Invariant

section WorkerSteps

variable {pipeline next : Pipeline} {account after : Account}

/-- A failed state comes with a text while a worker can be joined. -/
theorem Pipeline.Agrees.report_failed (h : pipeline.Agrees account)
    (hfailed : pipeline.state = .failed) : account.report = .failed := by
  by_contra hreport
  rcases h.active hreport with hstate | hstate <;> simp [hfailed] at hstate

theorem workerMonitor_failed {op : WorkerOp} {res : op.Res}
    (hstep : workerMonitor account op res = some after) (hfailed : account.report = .failed) :
    after.report = .failed := by
  cases op with
  | storeErrorMessage message => simp [workerMonitor, hfailed] at hstep
  | storeState state => simp [workerMonitor, hfailed] at hstep
  | _ =>
      obtain rfl := Option.some.inj hstep
      exact hfailed

/-- An operation of a worker changes nothing but the state and the text. -/
theorem Pipeline.perform_frame (pipeline : Pipeline)
    (environment : (op : WorkerOp) → op.Res) (op : WorkerOp) :
    ∃ state message, (pipeline.perform environment op).2 =
      { pipeline with state := state, errorMessage := message } := by
  cases op <;> exact ⟨_, _, rfl⟩

theorem Pipeline.Agrees.perform (h : pipeline.Agrees account) {op : WorkerOp}
    {environment : (op : WorkerOp) → op.Res}
    (hstep : workerMonitor account op (pipeline.perform environment op).1 = some after) :
    (pipeline.perform environment op).2.Agrees after := by
  cases op with
  | loadStopRequested =>
      obtain rfl := Option.some.inj hstep
      refine ⟨fun hseen => ?_, h.active, h.explained, h.failed⟩
      rcases Bool.or_eq_true_iff.mp hseen with hseen | hseen
      · exact h.stopSeen hseen
      · exact hseen
  | storeErrorMessage message =>
      rw [workerMonitor, Option.ite_none_right_eq_some] at hstep
      obtain ⟨⟨hpending, hmessage⟩, hafter⟩ := hstep
      obtain rfl := Option.some.inj hafter
      exact ⟨h.stopSeen, fun _ => h.active (by simp [hpending]), fun _ => hmessage, nofun⟩
  | storeState state =>
      rw [workerMonitor] at hstep
      split at hstep
      · next hrunning =>
          obtain rfl := Option.some.inj hstep
          refine ⟨h.stopSeen, fun _ => .inr hrunning.2, h.explained, fun hfailed => ?_⟩
          simp [hrunning.1] at hfailed
      · rw [Option.ite_none_right_eq_some] at hstep
        obtain ⟨⟨hexplained, hfailed⟩, hafter⟩ := hstep
        obtain rfl := Option.some.inj hafter
        exact ⟨h.stopSeen, fun hreport => absurd rfl hreport,
          fun _ => h.explained (by simp [hexplained]), fun _ => hfailed⟩
  | _ =>
      obtain rfl := Option.some.inj hstep
      exact h

/-- A step of a worker is a call of the worker that can be joined. -/
theorem ThreadInvariant.work_cases (h : ThreadInvariant pipeline) {index : Nat}
    {environment : (op : WorkerOp) → op.Res} (hwork : pipeline.work index environment = some next) :
    ∃ account after program state message,
      pipeline.worker = some index ∧ pipeline.Agrees account ∧
      (account.report = .failed → after.report = .failed) ∧
      WorkerFollows Accounted program after ∧
      next = { pipeline with
        state := state, errorMessage := message, workers := pipeline.workers.set index program } ∧
      next.Agrees after := by
  unfold Pipeline.work at hwork
  split at hwork
  · next op rest hat =>
      have hworker := h.worker_eq hat nofun
      obtain ⟨worker, account, hsame, hfollows, hagrees⟩ := h.joinable index hworker
      obtain rfl := Option.some.inj (hat.symm.trans hsame)
      obtain ⟨after, hstep, hrest⟩ := hfollows (pipeline.perform environment op).1
      obtain ⟨state, message, hframe⟩ := pipeline.perform_frame environment op
      have hafter := hagrees.perform hstep
      obtain rfl := Option.some.inj hwork
      rw [hframe] at hafter ⊢
      exact ⟨account, after, _, state, message, hworker, hagrees, workerMonitor_failed hstep, hrest,
        rfl, hafter.stopSeen, hafter.active, hafter.explained, hafter.failed⟩
  · cases hwork

theorem PipelineInvariant.work (h : PipelineInvariant pipeline) {index : Nat}
    {environment : (op : WorkerOp) → op.Res} (hwork : pipeline.work index environment = some next) :
    PipelineInvariant next := by
  obtain ⟨account, after, program, state, message, hworker, hagrees, hfailed, hfollows, rfl,
    hafter⟩ := h.work_cases hwork
  have hnotAlone : ¬ pipeline.controller.Alone := fun halone => by
    simp [h.alone halone] at hworker
  have hnotStarting : ¬ pipeline.controller.Starting := fun hstarting => hnotAlone (.inl hstarting)
  have hbound : index < pipeline.workers.length := by
    obtain ⟨worker, _, hat, _⟩ := h.joinable index hworker
    exact (List.getElem?_eq_some_iff.mp hat).1
  exact {
    returned := by
      intro other worker hat hother
      have hne : index ≠ other := fun heq => hother (heq ▸ hworker)
      rw [List.getElem?_set_ne hne] at hat
      exact h.returned other worker hat hother
    joinable := by
      intro other hother
      obtain rfl : index = other := Option.some.inj (hworker.symm.trans hother)
      exact ⟨program, after, List.getElem?_set_self hbound, hfollows, hafter⟩
    alone := fun halone => absurd halone hnotAlone
    explained := fun hstate => .inl (hafter.explained (by simp [hafter.report_failed hstate]))
    creating := fun url device hcontroller =>
      absurd (hcontroller ▸ trivial : pipeline.controller.Starting) hnotStarting
    storing := fun hcontroller => absurd (.inr (.inr hcontroller)) hnotAlone
    reported := by
      intro hreport
      have hstate := (h.reported hreport).resolve_left hnotStarting
      exact .inr (hafter.failed (hfailed (hagrees.report_failed hstate)))
    texts := h.texts
    stopped := by
      intro left hleft
      have hrest := (h.stopped left hleft).resolve_left hnotStarting
      simp [hrest.2.2] at hworker }

end WorkerSteps

section ControllerSteps

variable {pipeline next : Pipeline} {passes : Nat}

/-- What is known between the calls of the controller. -/
structure Quiet (pipeline : Pipeline) : Prop where
  explained : pipeline.state = .failed → pipeline.errorMessage ≠ ""
  reported : FailureReported pipeline.calls → pipeline.state = .failed
  stopped : ∀ left, LeftBehind pipeline.calls left → pipeline.AtRest left

theorem PipelineInvariant.quiet (h : PipelineInvariant pipeline)
    (hstarting : ¬ pipeline.controller.Starting) : Quiet pipeline where
  explained := by
    intro hstate
    refine (h.explained hstate).resolve_right ?_
    rintro ⟨url, device, hcontroller⟩
    exact hstarting (by simp [hcontroller, Controller.Starting])
  reported := fun hreport => (h.reported hreport).resolve_left hstarting
  stopped := fun left hleft => (h.stopped left hleft).resolve_left hstarting

/-- A call of `stop` goes on: the shared state stays as it is. -/
theorem PipelineInvariant.goOn (h : PipelineInvariant pipeline)
    (hquiet : ¬ pipeline.controller.Starting) {controller : Controller}
    (halone : controller.Alone → pipeline.worker = none) (hnext : ¬ controller.Starting)
    (hstoring : controller = .storeStopped → pipeline.state ≠ .failed) :
    PipelineInvariant { pipeline with controller := controller } where
  toThreadInvariant := h.elsewhere controller pipeline.calls
  alone := halone
  explained := fun hstate => .inl ((h.quiet hquiet).explained hstate)
  creating := by
    rintro url device rfl
    exact absurd trivial hnext
  storing := hstoring
  reported := fun hreport => .inr ((h.quiet hquiet).reported hreport)
  texts := h.texts
  stopped := fun left hleft => .inr ((h.quiet hquiet).stopped left hleft)

theorem PipelineInvariant.requestStop (h : PipelineInvariant pipeline) :
    PipelineInvariant { pipeline with stopRequested := true } where
  returned := h.returned
  joinable := by
    intro index hworker
    obtain ⟨worker, account, hat, hfollows, hagrees⟩ := h.joinable index hworker
    exact ⟨worker, account, hat, hfollows, fun _ => rfl, hagrees.active, hagrees.explained,
      hagrees.failed⟩
  alone := h.alone
  explained := h.explained
  creating := h.creating
  storing := h.storing
  reported := h.reported
  texts := h.texts
  stopped := h.stopped

/-- A call of `start` goes on: nothing is promised of the old session. -/
theorem PipelineInvariant.starting (h : PipelineInvariant pipeline)
    (hworker : pipeline.worker = none) {controller : Controller} (hstarting : controller.Starting)
    {stopRequested : Bool} {state : MediaPipelineState} {errorMessage : String}
    (hexplained : state = .failed →
      errorMessage ≠ "" ∨ ∃ url device, controller = .storeStarting url device)
    (hcreating : ∀ url device, controller = .createWorker url device → state = .starting) :
    PipelineInvariant
      { pipeline with
        stopRequested := stopRequested
        state := state
        errorMessage := errorMessage
        controller := controller } where
  toThreadInvariant := .of_none hworker (h.all_returned hworker)
  alone := fun _ => hworker
  explained := hexplained
  creating := hcreating
  storing := by
    rintro rfl
    exact hstarting.elim
  reported := fun _ => .inl hstarting
  texts := h.texts
  stopped := fun _ _ => .inl hstarting

theorem PipelineInvariant.start (h : PipelineInvariant pipeline)
    (hidle : pipeline.controller = .idle) (url device : Bytes) :
    PipelineInvariant (pipeline.start url device) := by
  have hquiet := h.quiet (by simp [hidle, Controller.Starting])
  unfold Pipeline.start
  split
  · exact h.toThreadInvariant.answered hquiet.explained hquiet.reported h.texts hquiet.stopped
  · next hchecks =>
      rw [Bool.or_eq_true, Bool.or_eq_true, not_or, not_or] at hchecks
      have hworker : pipeline.worker = none := by simpa using hchecks.1.1
      have hstarting : (Controller.clearStopRequested url device).Starting := trivial
      exact h.starting hworker hstarting (fun hstate => .inl (hquiet.explained hstate)) nofun

theorem PipelineInvariant.join (h : PipelineInvariant pipeline)
    (hcontroller : pipeline.controller = .joinWorker) (hjoin : pipeline.join = some next) :
    PipelineInvariant next := by
  have hstarting : ¬ pipeline.controller.Starting := by simp [hcontroller, Controller.Starting]
  unfold Pipeline.join at hjoin
  split at hjoin
  · next hworker =>
      obtain rfl := Option.some.inj hjoin
      exact h.goOn hstarting (fun _ => hworker) id nofun
  · next index hworker =>
      split at hjoin
      · next hreturned =>
          obtain rfl := Option.some.inj hjoin
          have hjoined : PipelineInvariant { pipeline with worker := none } := {
            toThreadInvariant := by
              refine .of_none rfl fun worker hmem => ?_
              obtain ⟨other, hat⟩ := List.mem_iff_getElem?.mp hmem
              by_cases hother : index = other
              · subst hother
                exact Option.some.inj (hat.symm.trans hreturned)
              · exact h.returned other worker hat (by simpa [hworker] using hother)
            alone := fun _ => rfl
            explained := h.explained
            creating := h.creating
            storing := h.storing
            reported := h.reported
            texts := h.texts
            stopped := fun left hleft => (h.stopped left hleft).imp_right fun hrest =>
              ⟨hrest.1, hrest.2.1, rfl⟩ }
          exact hjoined.goOn hstarting (fun _ => rfl) id nofun
      · cases hjoin

theorem PipelineInvariant.createWorker (h : PipelineInvariant pipeline) {url device : Bytes}
    (hcontroller : pipeline.controller = .createWorker url device)
    (hproceed : pipeline.proceed passes (.createWorker url device) = some next) :
    PipelineInvariant next := by
  obtain rfl := Option.some.inj hproceed
  have hworker := h.alone (.inl (by simp [hcontroller, Controller.Starting]))
  have hstate := h.creating url device hcontroller
  refine ThreadInvariant.answered ⟨?_, ?_⟩ ?_ nofun h.texts nofun
  · intro index worker hat hother
    rcases Nat.lt_or_ge index pipeline.workers.length with hold | hnew
    · rw [List.getElem?_append_left hold] at hat
      exact h.all_returned hworker worker (List.mem_of_getElem? hat)
    · have hlength : index = pipeline.workers.length := by
        have := (List.getElem?_eq_some_iff.mp hat).1
        simp only [List.length_append, List.length_singleton] at this
        omega
      exact absurd (congrArg some hlength.symm) hother
  · rintro index ⟨⟩
    refine ⟨run url device passes, .created, by simp, follows_run url device passes, ?_⟩
    exact ⟨nofun, fun _ => .inl hstate, fun h => absurd rfl h, nofun⟩
  · intro hfailed
    exact absurd (hstate.symm.trans hfailed) nofun

theorem PipelineInvariant.proceed (h : PipelineInvariant pipeline)
    (hproceed : pipeline.proceed passes pipeline.controller = some next) :
    PipelineInvariant next := by
  cases hcontroller : pipeline.controller with
  | idle => simp [hcontroller, Pipeline.proceed] at hproceed
  | clearStopRequested url device =>
      have hworker := h.alone (.inl (by simp [hcontroller, Controller.Starting]))
      rw [hcontroller] at hproceed
      obtain rfl := Option.some.inj hproceed
      have hstarting : (Controller.clearErrorMessage url device).Starting := trivial
      refine h.starting hworker hstarting (fun hstate => .inl ?_) nofun
      exact (h.explained hstate).resolve_right (by simp [hcontroller])
  | clearErrorMessage url device =>
      have hworker := h.alone (.inl (by simp [hcontroller, Controller.Starting]))
      rw [hcontroller] at hproceed
      obtain rfl := Option.some.inj hproceed
      have hstarting : (Controller.storeStarting url device).Starting := trivial
      exact h.starting hworker hstarting (fun _ => .inr ⟨url, device, rfl⟩) nofun
  | storeStarting url device =>
      have hworker := h.alone (.inl (by simp [hcontroller, Controller.Starting]))
      rw [hcontroller] at hproceed
      obtain rfl := Option.some.inj hproceed
      have hstarting : (Controller.createWorker url device).Starting := trivial
      exact h.starting hworker hstarting nofun fun _ _ _ => rfl
  | createWorker url device => exact h.createWorker hcontroller (hcontroller ▸ hproceed)
  | joinWorker =>
      rw [hcontroller] at hproceed
      exact h.join hcontroller hproceed
  | loadState =>
      have hstarting : ¬ pipeline.controller.Starting := by simp [hcontroller, Controller.Starting]
      have hworker := h.alone (.inr (.inl hcontroller))
      have hquiet := h.quiet hstarting
      rw [hcontroller, Pipeline.proceed] at hproceed
      split at hproceed
      · next hfailed =>
          obtain rfl := Option.some.inj hproceed
          refine h.toThreadInvariant.answered hquiet.explained hquiet.reported h.texts ?_
          rintro left (rfl | hleft)
          · exact ⟨rfl, .inr hfailed, hworker⟩
          · exact hquiet.stopped left hleft
      · next hfailed =>
          obtain rfl := Option.some.inj hproceed
          exact h.goOn hstarting (fun _ => hworker) id fun _ => hfailed
  | storeStopped =>
      have hworker := h.alone (.inr (.inr hcontroller))
      have hquiet := h.quiet (by simp [hcontroller, Controller.Starting])
      rw [hcontroller] at hproceed
      obtain rfl := Option.some.inj hproceed
      have hthreads : ThreadInvariant { pipeline with state := .stopped } :=
        .of_none hworker (h.all_returned hworker)
      refine @ThreadInvariant.answered _ hthreads (.stop .stopped) (fun h => nomatch h) ?_ h.texts ?_
      · intro hreport
        exact absurd (hquiet.reported hreport) (h.storing hcontroller)
      · rintro left (rfl | hleft)
        · exact ⟨rfl, .inl rfl, hworker⟩
        · obtain ⟨hstate, hends | hends, -⟩ := hquiet.stopped left hleft
          · exact ⟨hends.symm, .inl hends, hworker⟩
          · exact absurd (hstate.trans hends) (h.storing hcontroller)

theorem PipelineInvariant.step (h : PipelineInvariant pipeline) {action : PipelineAction}
    (hstep : pipeline.step passes action = some next) : PipelineInvariant next := by
  cases action with
  | start url device =>
      rw [Pipeline.step, Option.ite_none_right_eq_some] at hstep
      obtain ⟨hidle, hnext⟩ := hstep
      obtain rfl := Option.some.inj hnext
      exact h.start hidle url device
  | stop =>
      rw [Pipeline.step, Option.ite_none_right_eq_some] at hstep
      obtain ⟨hidle, hnext⟩ := hstep
      obtain rfl := Option.some.inj hnext
      have hstarting : ¬ pipeline.controller.Starting := by simp [hidle, Controller.Starting]
      exact h.requestStop.goOn hstarting (by simp [Controller.Alone, Controller.Starting]) id nofun
  | state =>
      rw [Pipeline.step, Option.ite_none_right_eq_some] at hstep
      obtain ⟨hidle, hnext⟩ := hstep
      obtain rfl := Option.some.inj hnext
      have hquiet := h.quiet (by simp [hidle, Controller.Starting])
      refine h.toThreadInvariant.answered hquiet.explained ?_ h.texts hquiet.stopped
      intro hreport
      cases hstate : pipeline.state with
      | failed => rfl
      | _ =>
          rw [hstate] at hreport
          exact hstate ▸ hquiet.reported hreport
  | errorMessage =>
      rw [Pipeline.step, Option.ite_none_right_eq_some] at hstep
      obtain ⟨hidle, hnext⟩ := hstep
      obtain rfl := Option.some.inj hnext
      have hquiet := h.quiet (by simp [hidle, Controller.Starting])
      refine h.toThreadInvariant.answered hquiet.explained hquiet.reported ⟨?_, h.texts⟩
        hquiet.stopped
      exact fun hreport => hquiet.explained (hquiet.reported hreport)
  | proceed => exact h.proceed hstep
  | work index environment => exact h.work hstep

end ControllerSteps

section Lifecycle

variable {pipeline next : Pipeline} {passes : Nat} {action : PipelineAction}

/-- What a step does to the log and to a failed state: a successful start is the
step behind `createWorker`, and a failed state is replaced only in front of it. -/
theorem PipelineInvariant.step_effect (h : PipelineInvariant pipeline)
    (hstep : pipeline.step passes action = some next) :
    ∃ more : List Call, next.calls = more ++ pipeline.calls ∧
      (.start true ∈ more ↔ ∃ url device, pipeline.controller = .createWorker url device) ∧
      (pipeline.state = .failed →
        next.state = .failed ∨ ∃ url device, next.controller = .createWorker url device) := by
  cases action with
  | start url device =>
      rw [Pipeline.step, Option.ite_none_right_eq_some] at hstep
      obtain rfl := Option.some.inj hstep.2
      unfold Pipeline.start
      split
      · exact ⟨[.start false], rfl, by simp [hstep.1], .inl⟩
      · exact ⟨[], rfl, by simp [hstep.1], .inl⟩
  | stop =>
      rw [Pipeline.step, Option.ite_none_right_eq_some] at hstep
      obtain rfl := Option.some.inj hstep.2
      exact ⟨[], rfl, by simp [hstep.1], .inl⟩
  | state =>
      rw [Pipeline.step, Option.ite_none_right_eq_some] at hstep
      obtain rfl := Option.some.inj hstep.2
      exact ⟨[.state pipeline.state], rfl, by simp [hstep.1], .inl⟩
  | errorMessage =>
      rw [Pipeline.step, Option.ite_none_right_eq_some] at hstep
      obtain rfl := Option.some.inj hstep.2
      exact ⟨[.errorMessage pipeline.errorMessage], rfl, by simp [hstep.1], .inl⟩
  | proceed =>
      rw [Pipeline.step] at hstep
      cases hcontroller : pipeline.controller with
      | idle => simp [hcontroller, Pipeline.proceed] at hstep
      | clearStopRequested url device =>
          rw [hcontroller] at hstep
          obtain rfl := Option.some.inj hstep
          exact ⟨[], rfl, by simp, .inl⟩
      | clearErrorMessage url device =>
          rw [hcontroller] at hstep
          obtain rfl := Option.some.inj hstep
          exact ⟨[], rfl, by simp, .inl⟩
      | storeStarting url device =>
          rw [hcontroller] at hstep
          obtain rfl := Option.some.inj hstep
          exact ⟨[], rfl, by simp, fun _ => .inr ⟨url, device, rfl⟩⟩
      | createWorker url device =>
          rw [hcontroller] at hstep
          obtain rfl := Option.some.inj hstep
          exact ⟨[.start true], rfl, by simp, .inl⟩
      | joinWorker =>
          rw [hcontroller, Pipeline.proceed, Pipeline.join] at hstep
          split at hstep
          · obtain rfl := Option.some.inj hstep
            exact ⟨[], rfl, by simp, .inl⟩
          · split at hstep
            · obtain rfl := Option.some.inj hstep
              exact ⟨[], rfl, by simp, .inl⟩
            · cases hstep
      | loadState =>
          rw [hcontroller, Pipeline.proceed] at hstep
          split at hstep
          · obtain rfl := Option.some.inj hstep
            exact ⟨[.stop pipeline.state], rfl, by simp, .inl⟩
          · obtain rfl := Option.some.inj hstep
            exact ⟨[], rfl, by simp, .inl⟩
      | storeStopped =>
          rw [hcontroller] at hstep
          obtain rfl := Option.some.inj hstep
          exact ⟨[.stop .stopped], rfl, by simp, fun hfailed =>
            absurd hfailed (h.storing hcontroller)⟩
  | work index environment =>
      obtain ⟨account, after, program, state, message, hworker, hagrees, hfailed, -, rfl, hafter⟩ :=
        h.work_cases hstep
      refine ⟨[], rfl, ?_, fun hstate => .inl ?_⟩
      · refine iff_of_false List.not_mem_nil ?_
        rintro ⟨url, device, hcontroller⟩
        have hnone := h.alone (.inl (by simp [hcontroller, Controller.Starting]))
        simp [hnone] at hworker
      · exact hafter.failed (hfailed (hagrees.report_failed hstate))

/-- What the object promises in each state of its runs. -/
structure PipelineLifecycle (passes : Nat) (pipeline : Pipeline) : Prop where
  /-- A worker that has returned without a stop request has failed. -/
  failed : ∀ index, pipeline.worker = some index → pipeline.workers[index]? = some (.ret ()) →
    pipeline.stopRequested = false → pipeline.state = .failed
  /-- After a poll has answered `Failed` there is a text, until the next successful start. -/
  text : ∀ after text between before,
    pipeline.calls = after ++ .errorMessage text :: (between ++ .state .failed :: before) →
    .start true ∉ between → text ≠ ""
  /-- `Failed` stays, up to the store of a start that is going to succeed. -/
  replaced : pipeline.state = .failed → ∀ later, (pipelineFrom passes pipeline).Reachable later →
    later.state = .failed ∨ (∃ url device, later.controller = .createWorker url device) ∨
      ∃ more, later.calls = more ++ pipeline.calls ∧ .start true ∈ more
  /-- Up to the next start that passes its checks, everything is as `stop` has left it. -/
  stopped : ∀ between left before, pipeline.calls = between ++ .stop left :: before →
    .start true ∉ between → ¬ pipeline.controller.Starting →
    pipeline.state = left ∧ (left = .stopped ∨ left = .failed) ∧
      ∀ worker ∈ pipeline.workers, worker = .ret ()
  /-- A start succeeds with no worker to be joined. -/
  accepted : ∀ action next, pipeline.step passes action = some next →
    next.calls = .start true :: pipeline.calls →
    pipeline.worker = none ∧ ∀ worker ∈ pipeline.workers, worker = .ret ()
  single : ∀ (first second : Nat) (one two : Worker Unit),
    pipeline.workers[first]? = some one →
    pipeline.workers[second]? = some two → one ≠ .ret () → two ≠ .ret () → first = second

theorem failureReported_append {between before : List Call} (h : .start true ∉ between) :
    FailureReported (between ++ .state .failed :: before) := by
  induction between with
  | nil => exact trivial
  | cons call between ih =>
      rw [List.mem_cons, not_or] at h
      have hlater := ih h.2
      cases call with
      | start accepted =>
          cases accepted with
          | true => exact absurd rfl h.1
          | false => exact hlater
      | state answer => cases answer <;> first | exact trivial | exact hlater
      | stop left => exact hlater
      | errorMessage answer => exact hlater

theorem explained_append {after before : List Call} (h : Explained (after ++ before)) :
    Explained before := by
  induction after with
  | nil => exact h
  | cons call after ih =>
      cases call with
      | errorMessage text => exact ih h.2
      | _ => exact ih h

theorem leftBehind_append {between before : List Call} {left : MediaPipelineState}
    (h : .start true ∉ between) : LeftBehind (between ++ .stop left :: before) left := by
  induction between with
  | nil => exact .inl rfl
  | cons call between ih =>
      rw [List.mem_cons, not_or] at h
      have hlater := ih h.2
      cases call with
      | start accepted =>
          cases accepted with
          | true => exact absurd rfl h.1
          | false => exact hlater
      | stop later => exact .inr hlater
      | state answer => exact hlater
      | errorMessage answer => exact hlater

theorem pipelineInvariant (hreachable : (pipelineMachine passes).Reachable pipeline) :
    PipelineInvariant pipeline := by
  refine hreachable.invariant ?_ fun _ _ _ h hstep => h.step hstep
  rintro _ rfl
  have hthreads : ThreadInvariant {} := .of_none rfl (by simp)
  exact ⟨hthreads, fun _ => rfl, nofun, nofun, nofun, nofun, trivial, nofun⟩

/-- From a failed state on, as far as no start is about to succeed or has. -/
theorem PipelineInvariant.replaced (h : PipelineInvariant pipeline)
    (hfailed : pipeline.state = .failed) {later : Pipeline}
    (hlater : (pipelineFrom passes pipeline).Reachable later) :
    later.state = .failed ∨ (∃ url device, later.controller = .createWorker url device) ∨
      ∃ more, later.calls = more ++ pipeline.calls ∧ .start true ∈ more := by
  let Kept (later : Pipeline) : Prop := PipelineInvariant later ∧
    ∃ more, later.calls = more ++ pipeline.calls ∧
      (later.state = .failed ∨ (∃ url device, later.controller = .createWorker url device) ∨
        .start true ∈ more)
  have hkept : Kept later := by
    refine hlater.invariant ?_ ?_
    · rintro _ rfl
      exact ⟨h, [], rfl, .inl hfailed⟩
    · rintro before action after ⟨hbefore, more, hcalls, hstands⟩ hstep
      obtain ⟨new, hnew, haccepted, hreplaced⟩ := hbefore.step_effect hstep
      refine ⟨hbefore.step hstep, new ++ more, by rw [hnew, hcalls, List.append_assoc], ?_⟩
      rcases hstands with hstate | hcreating | hstarted
      · exact (hreplaced hstate).imp_right .inl
      · exact .inr (.inr (List.mem_append_left _ (haccepted.mpr hcreating)))
      · exact .inr (.inr (List.mem_append_right _ hstarted))
  obtain ⟨-, more, hcalls, hstands⟩ := hkept
  exact hstands.imp_right fun hrest => hrest.imp_right fun hstarted => ⟨more, hcalls, hstarted⟩

/-- Whatever the controller calls, however its accesses and those of the workers
interleave, and whatever FFmpeg and V4L2 answer. -/
theorem lifecycle_of_reachable (hreachable : (pipelineMachine passes).Reachable pipeline) :
    PipelineLifecycle passes pipeline := by
  have h := pipelineInvariant hreachable
  exact {
    failed := by
      intro index hworker hreturned hstop
      obtain ⟨worker, account, hat, hfollows, hagrees⟩ := h.joinable index hworker
      obtain rfl := Option.some.inj (hreturned.symm.trans hat)
      rcases hfollows with hreport | ⟨-, hseen⟩
      · exact hagrees.failed hreport
      · simp [hagrees.stopSeen hseen] at hstop
    text := by
      intro after text between before hcalls hbetween
      have htexts := h.texts
      rw [hcalls] at htexts
      exact (explained_append htexts).1 (failureReported_append hbetween)
    replaced := fun hfailed later hlater => h.replaced hfailed hlater
    stopped := by
      intro between left before hcalls hbetween hstarting
      have hleft : LeftBehind pipeline.calls left := hcalls ▸ leftBehind_append hbetween
      obtain ⟨hstate, hends, hworker⟩ := (h.quiet hstarting).stopped left hleft
      exact ⟨hstate, hends, h.all_returned hworker⟩
    accepted := by
      intro action next hstep hcalls
      obtain ⟨more, hmore, haccepted, -⟩ := h.step_effect hstep
      have hnew : [.start true] = more := List.append_cancel_right (hcalls.symm.trans hmore)
      obtain ⟨url, device, hcontroller⟩ := haccepted.mp (hnew ▸ List.mem_singleton_self _)
      have hworker := h.alone (.inl (by simp [hcontroller, Controller.Starting]))
      exact ⟨hworker, h.all_returned hworker⟩
    single := by
      intro first second one two hone htwo hlive hother
      exact Option.some.inj ((h.worker_eq hone hlive).symm.trans (h.worker_eq htwo hother)) }

instance : Inhabited PollResult := ⟨.timeout⟩

instance (op : WorkerOp) : Inhabited op.Res := by
  cases op <;> infer_instance

/-- The first FFmpeg call fails. -/
def failingNetwork : (op : WorkerOp) → op.Res
  | .avformatNetworkInit => (-1 : Int)
  | _ => default

/-- A session that ends before the network is there: the controller polls the
state and the text, and stops. -/
def failingSession : List PipelineAction :=
  [.start [1] [1], .proceed, .proceed, .proceed, .proceed,
    .work 0 failingNetwork, .work 0 failingNetwork, .work 0 failingNetwork,
    .state, .errorMessage, .stop, .proceed, .proceed]

theorem lifecycle_of_failing_session :
    ∃ pipeline, PipelineLifecycle 1 pipeline ∧
      pipeline.calls = [.stop .failed, .errorMessage "FFmpeg network initialization failed",
        .state .failed, .start true] := by
  have hrun : ∃ pipeline : Pipeline,
      Machine.run (fun (pipeline : Pipeline) action => pipeline.step 1 action) {}
      failingSession = some pipeline ∧ pipeline.calls =
        [.stop .failed, .errorMessage "FFmpeg network initialization failed", .state .failed,
          .start true] := ⟨_, rfl, rfl⟩
  obtain ⟨pipeline, hpipeline, hcalls⟩ := hrun
  exact ⟨pipeline, lifecycle_of_reachable (Machine.reachable_of_run hpipeline), hcalls⟩

end Lifecycle

end OpenCam.Linux.MediaPipeline
