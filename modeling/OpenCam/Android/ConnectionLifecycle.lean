import OpenCam.Android.ConnectionManager

/-!
What holds of `ConnectionManager.kt` over all interleavings: who is responsible
for closing a connection, when a success that is reported is still current, and
which connection a failed send tears down.
-/

namespace OpenCam.Android

open Interaction

namespace ConnectionManager

section Ownership

/-- The activity is going to close the connection, or to hand it over. -/
def Responsible : Activity → Nat → Prop
  | .constructed attempt, connection => attempt.generation = connection
  | .rejected attempt, connection => attempt.generation = connection
  | .removed removed _, connection => removed = connection
  | .closing closing, connection => closing = connection
  | _, _ => False

def Owned (manager : ConnectionManager) (connection : Nat) : Prop :=
  manager.tcpConn = some connection ∨
    ∃ activity ∈ manager.activities, Responsible activity connection

/-- While an activity takes its step it may own connections beside the ones that
the manager owns. -/
structure OwnershipInvariant (manager : ConnectionManager) (extra : Nat → Prop) : Prop where
  owned : ∀ connection, manager.running connection = some true →
    Owned manager connection ∨ extra connection
  current : ∀ connection, manager.tcpConn = some connection →
    connection = manager.connectGeneration

variable {manager next : ConnectionManager} {extra : Nat → Prop}

theorem Owned.launch {connection : Nat} (h : Owned manager connection) (activity : Activity) :
    Owned (manager.launch activity) connection := by
  rcases h with hcurrent | ⟨other, hmem, hresponsible⟩
  · exact .inl hcurrent
  · exact .inr ⟨other, List.mem_append_left _ hmem, hresponsible⟩

theorem OwnershipInvariant.launch (h : OwnershipInvariant manager extra) (activity : Activity) :
    OwnershipInvariant (manager.launch activity) extra :=
  ⟨fun connection hrunning => (h.owned connection hrunning).imp_left fun howned =>
    howned.launch activity, h.current⟩

/-- What was owned beside the manager passes to the new activity. -/
theorem OwnershipInvariant.handOver {activity : Activity}
    (h : OwnershipInvariant manager (Responsible activity)) :
    OwnershipInvariant (manager.launch activity) fun _ => False where
  owned := by
    intro connection hrunning
    rcases h.owned connection hrunning with howned | hresponsible
    · exact .inl (howned.launch activity)
    · exact .inl (.inr ⟨activity, List.mem_append_right _ (List.mem_singleton_self _),
        hresponsible⟩)
  current := h.current

theorem OwnershipInvariant.stop (h : OwnershipInvariant manager extra) {stopped : Nat}
    (hextra : ∀ connection, extra connection → connection = stopped) :
    OwnershipInvariant (manager.stop stopped) fun _ => False where
  owned := by
    intro connection hrunning
    by_cases hsame : connection = stopped
    · subst hsame
      simp [ConnectionManager.stop] at hrunning
    · simp only [ConnectionManager.stop, Function.update_of_ne hsame] at hrunning
      rcases h.owned connection hrunning with howned | hother
      · exact .inl howned
      · exact absurd (hextra connection hother) hsame
  current := h.current

theorem OwnershipInvariant.report (h : OwnershipInvariant manager extra)
    (event : ConnectionEvent) : OwnershipInvariant (manager.report event) extra :=
  ⟨h.owned, h.current⟩

/-- The manager lets go of its connection. -/
theorem OwnershipInvariant.release {connection : Nat} {left : Nat → Prop}
    (h : OwnershipInvariant manager fun _ => False) (hcurrent : manager.tcpConn = some connection)
    (hleft : left connection) : OwnershipInvariant (manager.hold none) left where
  owned := by
    intro other hrunning
    rcases (h.owned other hrunning).resolve_right id with hheld | hactivity
    · obtain rfl := Option.some.inj (hcurrent.symm.trans hheld)
      exact .inr hleft
    · exact .inl (.inr hactivity)
  current := by simp [hold]

/-- A new attempt, or a close, while nothing is held. -/
theorem OwnershipInvariant.nextGeneration (h : OwnershipInvariant manager extra)
    (hnone : manager.tcpConn = none) :
    OwnershipInvariant { manager with connectGeneration := manager.connectGeneration + 1 } extra :=
  ⟨h.owned, by simp [hnone]⟩

/-- An activity is taken out of the list to make its step. -/
theorem OwnershipInvariant.take {activity : Activity}
    (h : OwnershipInvariant manager fun _ => False) :
    OwnershipInvariant { manager with activities := manager.activities.erase activity }
      (Responsible activity) where
  owned := by
    intro connection hrunning
    rcases (h.owned connection hrunning).resolve_right id with hcurrent | ⟨other, hmem, hother⟩
    · exact .inl (.inl hcurrent)
    · by_cases hsame : other = activity
      · exact .inr (hsame ▸ hother)
      · exact .inl (.inr ⟨other, (List.mem_erase_of_ne hsame).mpr hmem, hother⟩)
  current := h.current

/-- A connection is constructed. -/
theorem OwnershipInvariant.constructed (h : OwnershipInvariant manager fun _ => False)
    (attempt : Attempt) :
    OwnershipInvariant
      { manager with running := Function.update manager.running attempt.generation (some true) }
      (Responsible (.constructed attempt)) where
  owned := by
    intro connection hrunning
    by_cases hsame : connection = attempt.generation
    · exact .inr hsame.symm
    · simp only [Function.update_of_ne hsame] at hrunning
      exact .inl ((h.owned connection hrunning).resolve_right id)
  current := h.current

/-- The connection of the latest attempt becomes the manager's. Whatever the
manager held was of the same attempt. -/
theorem OwnershipInvariant.accept {attempt : Attempt}
    (h : OwnershipInvariant manager (Responsible (.constructed attempt)))
    (hlatest : attempt.generation = manager.connectGeneration) :
    OwnershipInvariant (manager.hold (some attempt.generation)) fun _ => False where
  owned := by
    intro connection hrunning
    rcases h.owned connection hrunning with (hheld | hactivity) | hresponsible
    · exact .inl (.inl (congrArg some (hlatest.trans (h.current connection hheld).symm)))
    · exact .inl (.inr hactivity)
    · exact .inl (.inl (congrArg some hresponsible))
  current := by
    intro connection hheld
    exact (Option.some.inj hheld).symm.trans hlatest

theorem OwnershipInvariant.advance {activity : Activity} {outcome : Bool}
    (h : OwnershipInvariant manager (Responsible activity)) :
    OwnershipInvariant (manager.advance outcome activity) fun _ => False := by
  cases activity with
  | constructing attempt =>
      rw [ConnectionManager.advance]
      split
      · exact (h.constructed attempt).handOver
      · exact h.launch _
  | constructed attempt =>
      rw [ConnectionManager.advance]
      split
      · have hrejected : OwnershipInvariant manager (Responsible (.rejected attempt)) := h
        exact hrejected.handOver
      · next hlatest => exact (h.accept (not_not.mp hlatest)).launch _
  | accepted attempt => exact (h.launch _).launch _
  | started attempt => exact h.report _
  | rejected attempt => exact h.stop fun _ hresponsible => hresponsible.symm
  | failed attempt =>
      rw [ConnectionManager.advance]
      split
      · exact h.launch _
      · exact h
  | failedCurrent attempt => exact h.report _
  | sendDescriptor =>
      rw [ConnectionManager.advance]
      split <;> exact h.launch _
  | sendErrorReport =>
      rw [ConnectionManager.advance]
      split
      · exact h.launch _
      · exact h
  | sending connection =>
      rw [ConnectionManager.advance]
      split
      · exact h
      · exact h.launch _
  | sendFailed connection =>
      rw [ConnectionManager.advance]
      split
      · exact h.launch _
      · exact h
  | receiving connection =>
      rw [ConnectionManager.advance]
      split
      · exact (h.stop fun _ hnone => hnone.elim).launch _
      · exact h
  | disconnecting connection cause =>
      rw [ConnectionManager.advance]
      split
      · exact h
      · next hheld =>
          have hreleased : OwnershipInvariant (manager.hold none)
              (Responsible (.removed connection cause)) := h.release (not_not.mp hheld) rfl
          exact (hreleased.report _).handOver
  | removed connection cause =>
      exact ((h.stop fun _ hresponsible => hresponsible.symm).report _).launch _
  | closed connection cause => exact h.report _
  | closing connection => exact h.stop fun _ hresponsible => hresponsible.symm

theorem OwnershipInvariant.step {action : ConnectionAction}
    (h : OwnershipInvariant manager fun _ => False) (hstep : manager.step action = some next) :
    OwnershipInvariant next fun _ => False := by
  cases action with
  | connect mode =>
      obtain rfl := Option.some.inj hstep
      unfold connectInternal
      rcases Option.eq_none_or_eq_some manager.tcpConn with hheld | ⟨connection, hheld⟩
      · have hadvanced := (h.nextGeneration hheld).launch
          (.constructing ⟨manager.connectGeneration + 1, mode⟩)
        simpa only [hheld] using hadvanced
      · have hreleased : OwnershipInvariant (manager.hold none)
            (Responsible (.closing connection)) := h.release hheld rfl
        have hdropped := hreleased.stop fun _ hresponsible => hresponsible.symm
        simp only [hheld]
        exact (hdropped.nextGeneration rfl).launch _
  | close =>
      obtain rfl := Option.some.inj hstep
      unfold ConnectionManager.close
      rcases Option.eq_none_or_eq_some manager.tcpConn with hheld | ⟨connection, hheld⟩
      · have hadvanced := h.nextGeneration hheld
        simpa only [hheld] using hadvanced
      · have hreleased : OwnershipInvariant (manager.hold none)
            (Responsible (.closing connection)) := h.release hheld rfl
        simp only [hheld]
        exact (hreleased.nextGeneration rfl).handOver
  | sendDescriptor =>
      obtain rfl := Option.some.inj hstep
      exact h.launch _
  | sendErrorReport =>
      obtain rfl := Option.some.inj hstep
      exact h.launch _
  | proceed activity outcome =>
      rw [ConnectionManager.step, Option.ite_none_right_eq_some] at hstep
      obtain rfl := Option.some.inj hstep.2
      exact h.take.advance

theorem ownershipInvariant_of_reachable (hreachable : connectionMachine.Reachable manager) :
    OwnershipInvariant manager fun _ => False := by
  induction hreachable with
  | initial hinitial =>
      cases hinitial
      exact ⟨by simp, by simp⟩
  | step action _ hstep ih => exact ih.step hstep

/-- No task stands between taking a connection out of `tcpConn` and closing it. -/
def Quiet (manager : ConnectionManager) : Prop :=
  ∀ connection cause, .closing connection ∉ manager.activities ∧
    .removed connection cause ∉ manager.activities

/-- Every constructed connection is the manager's, or held by a coroutine that
has still to act on its generation check, or closed, unless a task is just
about to close it. The manager's connection is always that of the latest
attempt, and no attempt, once a newer one or a close has begun. -/
theorem connection_owned (hreachable : connectionMachine.Reachable manager) :
    (Quiet manager → ∀ connection running, manager.running connection = some running →
      manager.tcpConn = some connection ∨
      (∃ attempt : Attempt, attempt.generation = connection ∧
        (.constructed attempt ∈ manager.activities ∨ .rejected attempt ∈ manager.activities)) ∨
      running = false) ∧
    ∀ connection, manager.tcpConn = some connection → connection = manager.connectGeneration := by
  have hinvariant := ownershipInvariant_of_reachable hreachable
  refine ⟨fun hquiet connection running hrunning => ?_, hinvariant.current⟩
  cases running with
  | false => exact .inr (.inr rfl)
  | true =>
      rcases (hinvariant.owned connection hrunning).resolve_right id with
        hheld | ⟨activity, hmem, hresponsible⟩
      · exact .inl hheld
      · refine .inr (.inl ?_)
        cases activity with
        | constructed attempt => exact ⟨attempt, hresponsible, .inl hmem⟩
        | rejected attempt => exact ⟨attempt, hresponsible, .inr hmem⟩
        | closing closing => exact absurd hmem (hquiet closing .receiver).1
        | removed removed cause => exact absurd hmem (hquiet removed cause).2
        | _ => cases hresponsible

/-- A manager whose `close` came before the construction was over. -/
def lateConstruction : ConnectionManager where
  connectGeneration := 2
  running := Function.update (fun _ => none) 1 (some true)
  activities := [.constructed ⟨1, .wifi⟩]

theorem connection_owned_late :
    Machine.run step {} [.connect .wifi, .close, .proceed (.constructing ⟨1, .wifi⟩) true] =
      some lateConstruction ∧
    (lateConstruction.tcpConn = some 1 ∨
      (∃ attempt : Attempt, attempt.generation = 1 ∧
        (.constructed attempt ∈ lateConstruction.activities ∨
          .rejected attempt ∈ lateConstruction.activities)) ∨ true = false) := by
  have hrun : Machine.run step {}
      [.connect .wifi, .close, .proceed (.constructing ⟨1, .wifi⟩) true] =
      some lateConstruction := rfl
  have hquiet : Quiet lateConstruction := by simp [Quiet, lateConstruction]
  exact ⟨hrun, (connection_owned (Machine.reachable_of_run hrun)).1 hquiet 1 true rfl⟩

end Ownership

section Successes

/-- The coroutine is past its generation check and before its callback. -/
def Awaiting : Activity → Attempt → Prop
  | .accepted attempt, other => attempt = other
  | .started attempt, other => attempt = other
  | _, _ => False

/-- Every success was reported for the latest attempt, whose connection the
manager held. -/
def SuccessesCurrent (manager : ConnectionManager) : Prop :=
  ∀ attempt connectGeneration tcpConn,
    .onConnectionSuccessful attempt connectGeneration tcpConn ∈ manager.events →
      attempt.generation = connectGeneration ∧ tcpConn = some attempt.generation

/-- Between an attempt's generation check and its callback neither `connect` nor
`close` is called, and the disconnection of its connection is not acted on. -/
def KeepsSuccess (manager : ConnectionManager) : ConnectionAction → Prop
  | .connect _ | .close =>
      ∀ activity ∈ manager.activities, ∀ attempt, ¬ Awaiting activity attempt
  | .proceed (.disconnecting connection _) _ => manager.tcpConn = some connection →
      ∀ activity ∈ manager.activities, ∀ attempt, Awaiting activity attempt →
        attempt.generation ≠ connection
  | _ => True

def Current (manager : ConnectionManager) (attempt : Attempt) : Prop :=
  attempt.generation = manager.connectGeneration ∧ manager.tcpConn = some attempt.generation

structure SuccessInvariant (manager : ConnectionManager) : Prop where
  awaiting : ∀ activity ∈ manager.activities, ∀ attempt, Awaiting activity attempt →
    Current manager attempt
  reported : SuccessesCurrent manager

variable {manager next : ConnectionManager}

theorem SuccessInvariant.launch (h : SuccessInvariant manager) {activity : Activity}
    (hcurrent : ∀ attempt, Awaiting activity attempt → Current manager attempt) :
    SuccessInvariant (manager.launch activity) where
  awaiting := by
    intro other hmem
    rcases List.mem_append.mp hmem with hold | hnew
    · exact h.awaiting other hold
    · rw [List.mem_singleton] at hnew
      exact hnew ▸ hcurrent
  reported := h.reported

theorem SuccessInvariant.report (h : SuccessInvariant manager) {event : ConnectionEvent}
    (hevent : ∀ attempt connectGeneration tcpConn,
      event = .onConnectionSuccessful attempt connectGeneration tcpConn →
        attempt.generation = connectGeneration ∧ tcpConn = some attempt.generation) :
    SuccessInvariant (manager.report event) where
  awaiting := h.awaiting
  reported := by
    intro attempt connectGeneration tcpConn hmem
    rcases List.mem_append.mp hmem with hold | hnew
    · exact h.reported _ _ _ hold
    · exact hevent _ _ _ (List.mem_singleton.mp hnew).symm

theorem SuccessInvariant.stop (h : SuccessInvariant manager) (connection : Nat) :
    SuccessInvariant (manager.stop connection) := ⟨h.awaiting, h.reported⟩

/-- While no attempt awaits its callback the manager may change what it holds. -/
theorem SuccessInvariant.idle (h : SuccessInvariant manager)
    (hidle : ∀ activity ∈ manager.activities, ∀ attempt, ¬ Awaiting activity attempt)
    (hactivities : next.activities = manager.activities) (hevents : next.events = manager.events) :
    SuccessInvariant next where
  awaiting := by
    intro activity hmem attempt hawaiting
    exact absurd hawaiting (hidle activity (hactivities ▸ hmem) attempt)
  reported := by
    rw [SuccessesCurrent, hevents]
    exact h.reported

theorem SuccessInvariant.take (h : SuccessInvariant manager) (activity : Activity) :
    SuccessInvariant { manager with activities := manager.activities.erase activity } :=
  ⟨fun other hmem => h.awaiting other (List.mem_of_mem_erase hmem), h.reported⟩

theorem SuccessInvariant.advance (h : SuccessInvariant manager) {activity : Activity}
    {outcome : Bool}
    (hcurrent : ∀ attempt, Awaiting activity attempt → Current manager attempt)
    (hkeeps : ∀ connection cause, activity = .disconnecting connection cause →
      manager.tcpConn = some connection → ∀ other ∈ manager.activities, ∀ attempt,
        Awaiting other attempt → attempt.generation ≠ connection) :
    SuccessInvariant (manager.advance outcome activity) := by
  cases activity with
  | constructing attempt =>
      rw [ConnectionManager.advance]
      split
      · have hconstructed : SuccessInvariant { manager with
            running := Function.update manager.running attempt.generation (some true) } :=
          ⟨h.awaiting, h.reported⟩
        exact hconstructed.launch (by simp [Awaiting])
      · exact h.launch (by simp [Awaiting])
  | constructed attempt =>
      rw [ConnectionManager.advance]
      split
      · exact h.launch (by simp [Awaiting])
      · next hlatest =>
          rw [ne_eq, not_not] at hlatest
          have haccepted : SuccessInvariant (manager.hold (some attempt.generation)) := by
            refine ⟨fun other hmem waiting hawaiting => ?_, h.reported⟩
            have hwaiting := (h.awaiting other hmem waiting hawaiting).1
            exact ⟨hwaiting, congrArg some (hlatest.trans hwaiting.symm)⟩
          refine haccepted.launch ?_
          rintro other rfl
          exact ⟨hlatest, rfl⟩
  | accepted attempt =>
      have hreceiving : SuccessInvariant (manager.launch (.receiving attempt.generation)) :=
        h.launch (by simp [Awaiting])
      exact hreceiving.launch hcurrent
  | started attempt =>
      refine h.report ?_
      intro other connectGeneration tcpConn hevent
      cases hevent
      exact hcurrent attempt rfl
  | rejected attempt => exact h.stop _
  | failed attempt =>
      rw [ConnectionManager.advance]
      split
      · exact h.launch (by simp [Awaiting])
      · exact h
  | failedCurrent attempt => exact h.report (by simp)
  | sendDescriptor =>
      rw [ConnectionManager.advance]
      split <;> exact h.launch (by simp [Awaiting])
  | sendErrorReport =>
      rw [ConnectionManager.advance]
      split
      · exact h.launch (by simp [Awaiting])
      · exact h
  | sending connection =>
      rw [ConnectionManager.advance]
      split
      · exact h
      · exact h.launch (by simp [Awaiting])
  | sendFailed connection =>
      rw [ConnectionManager.advance]
      split
      · exact h.launch (by simp [Awaiting])
      · exact h
  | receiving connection =>
      rw [ConnectionManager.advance]
      split
      · exact (h.stop _).launch (by simp [Awaiting])
      · exact h
  | disconnecting connection cause =>
      rw [ConnectionManager.advance]
      split
      · exact h
      · next hheld =>
          rw [ne_eq, not_not] at hheld
          -- An attempt that awaits its callback has the connection that is let go.
          have hidle : ∀ other ∈ manager.activities, ∀ attempt, ¬ Awaiting other attempt := by
            intro other hmem attempt hawaiting
            have hsame := (h.awaiting other hmem attempt hawaiting).2
            exact hkeeps connection cause rfl hheld other hmem attempt hawaiting
              (Option.some.inj (hsame.symm.trans hheld))
          have hreleased : SuccessInvariant (manager.hold none) := h.idle hidle rfl rfl
          exact (hreleased.report (by simp)).launch (by simp [Awaiting])
  | removed connection cause =>
      exact ((h.stop _).report (by simp)).launch (by simp [Awaiting])
  | closed connection cause => exact h.report (by simp)
  | closing connection => exact h.stop _

theorem SuccessInvariant.step {action : ConnectionAction} (h : SuccessInvariant manager)
    (hkeeps : KeepsSuccess manager action) (hstep : manager.step action = some next) :
    SuccessInvariant next := by
  cases action with
  | connect mode =>
      obtain rfl := Option.some.inj hstep
      obtain ⟨running, hconnect⟩ := manager.connectInternal_eq mode
      rw [hconnect]
      refine ⟨fun activity hmem attempt hawaiting => ?_, h.reported⟩
      rcases List.mem_append.mp hmem with hold | hnew
      · exact absurd hawaiting (hkeeps activity hold attempt)
      · rw [List.mem_singleton] at hnew
        subst hnew
        cases hawaiting
  | close =>
      obtain rfl := Option.some.inj hstep
      obtain ⟨closing, hclosing, hclose⟩ := manager.close_eq
      rw [hclose]
      refine ⟨fun activity hmem attempt hawaiting => ?_, h.reported⟩
      rcases List.mem_append.mp hmem with hold | hnew
      · exact absurd hawaiting (hkeeps activity hold attempt)
      · obtain ⟨connection, rfl⟩ := hclosing activity hnew
        cases hawaiting
  | sendDescriptor =>
      obtain rfl := Option.some.inj hstep
      exact h.launch (by simp [Awaiting])
  | sendErrorReport =>
      obtain rfl := Option.some.inj hstep
      exact h.launch (by simp [Awaiting])
  | proceed activity outcome =>
      rw [ConnectionManager.step, Option.ite_none_right_eq_some] at hstep
      obtain ⟨hmem, hnext⟩ := hstep
      obtain rfl := Option.some.inj hnext
      refine (h.take activity).advance (h.awaiting activity hmem) ?_
      rintro connection cause rfl hheld other hother
      exact hkeeps hheld other (List.mem_of_mem_erase hother)

/-- In a run that keeps every success until it is reported, no stale success is
reported. -/
theorem successes_current
    (hreachable : (connectionMachine.restrict KeepsSuccess).Reachable manager) :
    SuccessesCurrent manager := by
  have hinvariant : SuccessInvariant manager := by
    induction hreachable with
    | initial hinitial =>
        cases hinitial
        exact ⟨by simp, by simp [SuccessesCurrent]⟩
    | step action _ hstep ih => exact ih.step hstep.1 hstep.2
  exact hinvariant.reported

/-- The steps of a first attempt up to its callback. -/
def firstAttempt : List ConnectionAction :=
  [.connect .wifi, .proceed (.constructing ⟨1, .wifi⟩) true,
    .proceed (.constructed ⟨1, .wifi⟩) true, .proceed (.accepted ⟨1, .wifi⟩) true]

/-- Nothing happens between the check and the callback of a first attempt. -/
theorem successes_current_undisturbed :
    SuccessesCurrent
      { connectGeneration := 1
        tcpConn := some 1
        running := Function.update (fun _ => none) 1 (some true)
        activities := [.receiving 1]
        events := [.onConnectionSuccessful ⟨1, .wifi⟩ 1 (some 1)] } := by
  have halong : Machine.Along step KeepsSuccess {}
      (firstAttempt ++ [.proceed (.started ⟨1, .wifi⟩) true]) := by
    refine (Machine.along_cons rfl).mpr ⟨by simp [KeepsSuccess], ?_⟩
    repeat refine (Machine.along_cons rfl).mpr ⟨trivial, ?_⟩
    exact trivial
  exact successes_current (.run (.initial rfl) halong rfl)

/-- `close` is called between the check and the callback: the success of the
closed attempt is reported when nothing is connected. -/
theorem success_stale :
    ∃ manager, connectionMachine.Reachable manager ∧
      manager.events = [.onConnectionSuccessful ⟨1, .wifi⟩ 2 none] ∧
      ¬ SuccessesCurrent manager := by
  have hrun : Machine.run step {}
      (firstAttempt ++ [.close, .proceed (.started ⟨1, .wifi⟩) true]) = some
      { connectGeneration := 2
        running := Function.update (fun _ => none) 1 (some true)
        activities := [.receiving 1, .closing 1]
        events := [.onConnectionSuccessful ⟨1, .wifi⟩ 2 none] } := rfl
  refine ⟨_, Machine.reachable_of_run hrun, rfl, fun hcurrent => ?_⟩
  have hstale := (hcurrent ⟨1, .wifi⟩ 2 none (List.mem_singleton_self _)).1
  cases hstale

end Successes

section FailedSends

/-- What is torn down, and why. -/
def TornDown : ConnectionEvent → Nat → Cause → Prop
  | .removed connection cause, torn, why => connection = torn ∧ cause = why
  | .closed connection cause, torn, why => connection = torn ∧ cause = why
  | .onDisconnected connection cause, torn, why => connection = torn ∧ cause = why
  | _, _, _ => False

/-- The activity is about to tear a connection down. -/
def TearsDown : Activity → Nat → Cause → Prop
  | .disconnecting connection cause, torn, why => connection = torn ∧ cause = why
  | .removed connection cause, torn, why => connection = torn ∧ cause = why
  | .closed connection cause, torn, why => connection = torn ∧ cause = why
  | _, _, _ => False

/-- A send that failed has torn down no connection but its own. -/
def SendsContained (manager : ConnectionManager) : Prop :=
  ∀ event ∈ manager.events, ∀ torn connection,
    TornDown event torn (.failedSend (some connection)) → torn = connection

/-- When a send has thrown, no other connection has taken the place of its own
before the handler looks at `tcpConn`. -/
def KeepsSend (manager : ConnectionManager) : ConnectionAction → Prop
  | .proceed (.sendFailed (some connection)) _ =>
      manager.tcpConn = none ∨ manager.tcpConn = some connection
  | _ => True

structure SendInvariant (manager : ConnectionManager) : Prop where
  tearing : ∀ activity ∈ manager.activities, ∀ torn connection,
    TearsDown activity torn (.failedSend (some connection)) → torn = connection
  contained : SendsContained manager

variable {manager next : ConnectionManager}

theorem SendInvariant.launch (h : SendInvariant manager) {activity : Activity}
    (hactivity : ∀ torn connection, TearsDown activity torn (.failedSend (some connection)) →
      torn = connection) : SendInvariant (manager.launch activity) where
  tearing := by
    intro other hmem
    rcases List.mem_append.mp hmem with hold | hnew
    · exact h.tearing other hold
    · rw [List.mem_singleton] at hnew
      exact hnew ▸ hactivity
  contained := h.contained

theorem SendInvariant.report (h : SendInvariant manager) {event : ConnectionEvent}
    (hevent : ∀ torn connection, TornDown event torn (.failedSend (some connection)) →
      torn = connection) : SendInvariant (manager.report event) where
  tearing := h.tearing
  contained := by
    intro other hmem
    rcases List.mem_append.mp hmem with hold | hnew
    · exact h.contained other hold
    · rw [List.mem_singleton] at hnew
      exact hnew ▸ hevent

/-- What the manager holds and which connections run does not matter here. -/
theorem SendInvariant.same (h : SendInvariant manager)
    (hactivities : ∀ activity ∈ next.activities, activity ∈ manager.activities)
    (hevents : next.events = manager.events) : SendInvariant next where
  tearing := fun activity hmem => h.tearing activity (hactivities activity hmem)
  contained := by
    rw [SendsContained, hevents]
    exact h.contained

theorem SendInvariant.advance (h : SendInvariant manager) {activity : Activity} {outcome : Bool}
    (htearing : ∀ torn connection, TearsDown activity torn (.failedSend (some connection)) →
      torn = connection)
    (hkeeps : KeepsSend manager (.proceed activity outcome)) :
    SendInvariant (manager.advance outcome activity) := by
  have hstop : ∀ connection, SendInvariant (manager.stop connection) :=
    fun connection => h.same (fun _ hmem => hmem) rfl
  have hhold : ∀ tcpConn, SendInvariant (manager.hold tcpConn) :=
    fun tcpConn => h.same (fun _ hmem => hmem) rfl
  cases activity with
  | constructing attempt =>
      rw [ConnectionManager.advance]
      split
      · have hconstructed : SendInvariant { manager with
            running := Function.update manager.running attempt.generation (some true) } :=
          h.same (fun _ hmem => hmem) rfl
        exact hconstructed.launch (by simp [TearsDown])
      · exact h.launch (by simp [TearsDown])
  | constructed attempt =>
      rw [ConnectionManager.advance]
      split
      · exact h.launch (by simp [TearsDown])
      · exact (hhold _).launch (by simp [TearsDown])
  | accepted attempt =>
      have hreceiving : SendInvariant (manager.launch (.receiving attempt.generation)) :=
        h.launch (by simp [TearsDown])
      exact hreceiving.launch (by simp [TearsDown])
  | started attempt => exact h.report (by simp [TornDown])
  | rejected attempt => exact hstop _
  | failed attempt =>
      rw [ConnectionManager.advance]
      split
      · exact h.launch (by simp [TearsDown])
      · exact h
  | failedCurrent attempt => exact h.report (by simp [TornDown])
  | sendDescriptor =>
      rw [ConnectionManager.advance]
      split <;> exact h.launch (by simp [TearsDown])
  | sendErrorReport =>
      rw [ConnectionManager.advance]
      split
      · exact h.launch (by simp [TearsDown])
      · exact h
  | sending connection =>
      rw [ConnectionManager.advance]
      split
      · exact h
      · exact h.launch (by simp [TearsDown])
  | sendFailed connection =>
      rw [ConnectionManager.advance]
      split
      · next current hheld =>
          refine h.launch ?_
          rintro torn sent ⟨rfl, hcause⟩
          obtain rfl : connection = some sent := by simpa using hcause
          rcases hkeeps with hnone | hsame
          · exact absurd (hnone.symm.trans hheld) (by simp)
          · exact Option.some.inj (hheld.symm.trans hsame)
      · exact h
  | receiving connection =>
      rw [ConnectionManager.advance]
      split
      · exact (hstop _).launch (by simp [TearsDown])
      · exact h
  | disconnecting connection cause =>
      rw [ConnectionManager.advance]
      split
      · exact h
      · have hreported : SendInvariant
            ((manager.hold none).report (.removed connection cause)) :=
          (hhold none).report htearing
        exact hreported.launch htearing
  | removed connection cause =>
      have hreported : SendInvariant
          ((manager.stop connection).report (.closed connection cause)) :=
        (hstop connection).report htearing
      exact hreported.launch htearing
  | closed connection cause => exact h.report htearing
  | closing connection => exact hstop _

theorem SendInvariant.step {action : ConnectionAction} (h : SendInvariant manager)
    (hkeeps : KeepsSend manager action) (hstep : manager.step action = some next) :
    SendInvariant next := by
  cases action with
  | connect mode =>
      obtain rfl := Option.some.inj hstep
      obtain ⟨running, hconnect⟩ := manager.connectInternal_eq mode
      rw [hconnect]
      refine ⟨fun activity hmem => ?_, h.contained⟩
      rcases List.mem_append.mp hmem with hold | hnew
      · exact h.tearing activity hold
      · rw [List.mem_singleton] at hnew
        subst hnew
        exact fun _ _ htearing => htearing.elim
  | close =>
      obtain rfl := Option.some.inj hstep
      obtain ⟨closing, hclosing, hclose⟩ := manager.close_eq
      rw [hclose]
      refine ⟨fun activity hmem => ?_, h.contained⟩
      rcases List.mem_append.mp hmem with hold | hnew
      · exact h.tearing activity hold
      · obtain ⟨connection, rfl⟩ := hclosing activity hnew
        exact fun _ _ htearing => htearing.elim
  | sendDescriptor =>
      obtain rfl := Option.some.inj hstep
      exact h.launch (by simp [TearsDown])
  | sendErrorReport =>
      obtain rfl := Option.some.inj hstep
      exact h.launch (by simp [TearsDown])
  | proceed activity outcome =>
      rw [ConnectionManager.step, Option.ite_none_right_eq_some] at hstep
      obtain ⟨hmem, hnext⟩ := hstep
      obtain rfl := Option.some.inj hnext
      have htaken : SendInvariant
          { manager with activities := manager.activities.erase activity } :=
        h.same (fun _ hother => List.mem_of_mem_erase hother) rfl
      exact htaken.advance (h.tearing activity hmem) hkeeps

/-- In a run in which no handler of a failed send finds another connection, a
failed send tears down no connection but its own. -/
theorem sends_contained (hreachable : (connectionMachine.restrict KeepsSend).Reachable manager) :
    SendsContained manager := by
  have hinvariant : SendInvariant manager := by
    induction hreachable with
    | initial hinitial =>
        cases hinitial
        exact ⟨by simp, by simp [SendsContained]⟩
    | step action _ hstep ih => exact ih.step hstep.1 hstep.2
  exact hinvariant.contained

/-- A report is sent on the first connection and fails. -/
def failingReport : List ConnectionAction :=
  [.sendErrorReport, .proceed .sendErrorReport true, .proceed (.sending 1) false]

/-- The handler of a failed send up to the callback. -/
def failureHandled (connection : Nat) : List ConnectionAction :=
  [.proceed (.sendFailed (some 1)) true,
    .proceed (.disconnecting connection (.failedSend (some 1))) true,
    .proceed (.removed connection (.failedSend (some 1))) true,
    .proceed (.closed connection (.failedSend (some 1))) true]

def tornDown (connection : Nat) : List ConnectionEvent :=
  [.removed connection (.failedSend (some 1)), .closed connection (.failedSend (some 1)),
    .onDisconnected connection (.failedSend (some 1))]

/-- The connection of the send is still the manager's when its handler looks. -/
theorem sends_contained_undisturbed :
    SendsContained
      { connectGeneration := 1
        running := Function.update (Function.update (fun _ => none) 1 (some true)) 1 (some false)
        activities := [.receiving 1, .started ⟨1, .wifi⟩]
        events := tornDown 1 } := by
  have halong : Machine.Along step KeepsSend {}
      (firstAttempt ++ failingReport ++ failureHandled 1) := by
    repeat refine (Machine.along_cons rfl).mpr ⟨by first | exact .inr rfl | exact trivial, ?_⟩
    exact trivial
  exact sends_contained (.run (.initial rfl) halong rfl)

/-- A second attempt takes the place of the connection before the send on it
fails: the handler tears down the new connection. -/
theorem send_tears_down_another :
    ∃ manager, connectionMachine.Reachable manager ∧
      manager.events = tornDown 2 ∧ ¬ SendsContained manager := by
  have hrun : ∃ manager, Machine.run step {}
      (firstAttempt ++ [.sendErrorReport, .proceed .sendErrorReport true, .connect .wifi,
        .proceed (.constructing ⟨2, .wifi⟩) true, .proceed (.constructed ⟨2, .wifi⟩) true,
        .proceed (.sending 1) false] ++ failureHandled 2) = some manager ∧
      manager.events = tornDown 2 := ⟨_, rfl, rfl⟩
  obtain ⟨manager, hmanager, hevents⟩ := hrun
  refine ⟨manager, Machine.reachable_of_run hmanager, hevents, fun hcontained => ?_⟩
  have hown := hcontained (.removed 2 (.failedSend (some 1))) (by simp [hevents, tornDown]) 2 1
    ⟨rfl, rfl⟩
  cases hown

end FailedSends

end ConnectionManager

end OpenCam.Android
