import OpenCam.Android.ConnectionLocking

/-!
Waiting for a receiver thread under the lock. `connectInternal` closes the connection it drops
inside its `synchronized` block, so it can wait for a receiver thread that waits for the lock;
the other callers of `TCPConnection.close` have left the lock. What decides is whether the
receiver thread has something in hand when the wait begins.
-/

namespace OpenCam.Android.Locking

open Interaction

namespace LockedManager

section Property

variable (manager : LockedManager)

/-- A thread stands there: one of the tasks, or a receiver that calls the manager. -/
def Stands (task : Task) : Prop :=
  task ∈ manager.tasks ∨ ∃ (connection : Nat) (tcp : TCPConnection) (calls : List Request),
    manager.connections[connection]? = some tcp ∧ tcp.receiver = some (.calling task calls)

/-- The receiver thread of a connection is before a `synchronized` block. -/
def ReceiverWaits (connection : Nat) : Prop :=
  ∃ tcp : TCPConnection, manager.connections[connection]? = some tcp ∧
    (tcp.receiver = some .waiting ∨
      ∃ task calls, tcp.receiver = some (.calling task calls) ∧ task.waits = true)

/-- A thread that holds the lock waits for a receiver thread that waits for the lock. -/
def LockAndJoin : Prop :=
  ∃ task connection, manager.Stands task ∧ task.holds = true ∧ task.joins = some connection ∧
    manager.ReceiverWaits connection

end Property

end LockedManager

/-- The thread has no use of the lock ahead: it is behind the only block of `close`. -/
def Task.released : Task → Bool
  | .closing _ _ .close => true
  | _ => false

/-- The receiver thread has something in hand for which it will take the lock. -/
def Receiver.engaged : Receiver → Bool
  | .received | .waiting | .checked _ => true
  | .callback calls => calls.any fun request => !request.launched
  | .calling task calls => !task.released || calls.any fun request => !request.launched
  | .looping | .reading | .ending | .closingSocket | .ended => false

namespace LockedManager

/-- The receiver thread of a connection, if it was started, has nothing in hand. -/
def Disengaged (manager : LockedManager) (connection : Nat) : Prop :=
  ∀ (tcp : TCPConnection) (receiver : Receiver), manager.connections[connection]? = some tcp →
    tcp.receiver = some receiver → receiver.engaged = false

/-- Where `connectInternal` is about to wait for the receiver thread of another connection,
that thread has nothing in hand. -/
def JoinsDisengaged (manager : LockedManager) : LockAction → Prop
  | .proceed (.closing .checkThread connection (.connectInternal _)) _ =>
      manager.Disengaged connection
  | .receive self _ _ => ∀ (tcp : TCPConnection) connection mode calls, manager.connections[self]? = some tcp →
      tcp.receiver = some (.calling (.closing .checkThread connection (.connectInternal mode)) calls) →
      connection ≠ self → manager.Disengaged connection
  | _ => True

section Connections

variable {manager after : LockedManager} {connection : Nat}

/-- A receiver thread is only started, and a socket stays closed. -/
structure Evolves (manager after : LockedManager) : Prop where
  kept : ∀ (connection : Nat) (tcp : TCPConnection), manager.connections[connection]? = some tcp →
    ∃ tcp' : TCPConnection, after.connections[connection]? = some tcp' ∧
      (tcp.socketOpen = false → tcp'.socketOpen = false) ∧
      (tcp'.receiver = tcp.receiver ∨ tcp.receiver = none ∧ tcp'.receiver = some .looping)
  found : ∀ (connection : Nat) (tcp' : TCPConnection), after.connections[connection]? = some tcp' →
    tcp'.receiver = none ∨ tcp'.receiver = some .looping ∨
      ∃ tcp, manager.connections[connection]? = some tcp ∧ tcp'.receiver = tcp.receiver
  tasks : ∀ task ∈ after.tasks, task ∈ manager.tasks ∨ task.closes = false

theorem Evolves.refl (manager : LockedManager) : Evolves manager manager :=
  ⟨fun _ tcp htcp => ⟨tcp, htcp, id, Or.inl rfl⟩, fun _ tcp htcp => Or.inr (Or.inr ⟨tcp, htcp, rfl⟩),
    fun _ => Or.inl⟩

/-- Whatever else changes, the connections stay and what is launched does not close. -/
theorem Evolves.of_same (hconnections : after.connections = manager.connections)
    (htasks : ∀ task ∈ after.tasks, task ∈ manager.tasks ∨ task.closes = false) :
    Evolves manager after := by
  have h := Evolves.refl manager
  refine ⟨?_, ?_, htasks⟩
  · rw [hconnections]
    exact h.kept
  · rw [hconnections]
    exact h.found

theorem getElem?_change (manager : LockedManager) (connection other : Nat)
    (f : TCPConnection → TCPConnection) :
    (manager.change connection f).connections[other]? =
      (manager.connections[other]?).map fun tcp => if connection = other then f tcp else tcp := by
  rw [change, List.getElem?_modify]
  split
  · rfl
  · simp

/-- A change that starts a receiver at most and opens no socket. -/
theorem Evolves.of_change {f : TCPConnection → TCPConnection}
    (hsocket : ∀ tcp, tcp.socketOpen = false → (f tcp).socketOpen = false)
    (hreceiver : ∀ tcp, (f tcp).receiver = tcp.receiver ∨
      tcp.receiver = none ∧ (f tcp).receiver = some .looping) :
    Evolves manager (manager.change connection f) := by
  refine ⟨fun other tcp htcp => ?_, fun other tcp' htcp' => ?_, fun _ => Or.inl⟩
  · rw [getElem?_change, htcp]
    refine ⟨_, rfl, ?_⟩
    split
    · exact ⟨hsocket tcp, hreceiver tcp⟩
    · exact ⟨id, Or.inl rfl⟩
  · rw [getElem?_change] at htcp'
    obtain ⟨tcp, htcp, rfl⟩ := Option.map_eq_some_iff.mp htcp'
    split
    · rcases hreceiver tcp with hsame | ⟨_, hstarted⟩
      · exact Or.inr (Or.inr ⟨tcp, htcp, hsame⟩)
      · exact Or.inr (Or.inl hstarted)
    · exact Or.inr (Or.inr ⟨tcp, htcp, rfl⟩)

theorem evolves_stop : Evolves manager (manager.stop connection) :=
  .of_change (fun _ => id) fun _ => Or.inl rfl

theorem evolves_closeSocket : Evolves manager (manager.closeSocket connection) :=
  .of_change (fun _ _ => rfl) fun _ => Or.inl rfl

theorem evolves_start : Evolves manager (manager.start connection) := by
  refine Evolves.of_change (fun _ => id) fun tcp => ?_
  cases hreceiver : tcp.receiver with
  | none => exact Or.inr ⟨rfl, rfl⟩
  | some receiver => exact Or.inl rfl

theorem evolves_construct :
    Evolves manager { manager with connections := manager.connections ++ [{}] } := by
  refine ⟨fun other tcp htcp => ?_, fun other tcp' htcp' => ?_, fun _ => Or.inl⟩
  · have hbound := (List.getElem?_eq_some_iff.mp htcp).1
    exact ⟨tcp, (List.getElem?_append_left hbound).trans htcp, id, Or.inl rfl⟩
  · by_cases hbound : other < manager.connections.length
    · rw [List.getElem?_append_left hbound] at htcp'
      exact Or.inr (Or.inr ⟨tcp', htcp', rfl⟩)
    · rw [List.getElem?_append_right (by omega)] at htcp'
      have hnew := List.mem_of_getElem? htcp'
      rw [List.mem_singleton.mp hnew]
      exact Or.inl rfl

theorem Evolves.trans {middle : LockedManager} (first : Evolves manager middle)
    (second : Evolves middle after) : Evolves manager after := by
  refine ⟨fun other tcp htcp => ?_, fun other tcp' htcp' => ?_, fun task htask => ?_⟩
  · obtain ⟨tcp₁, htcp₁, hsocket₁, hreceiver₁⟩ := first.kept other tcp htcp
    obtain ⟨tcp₂, htcp₂, hsocket₂, hreceiver₂⟩ := second.kept other tcp₁ htcp₁
    refine ⟨tcp₂, htcp₂, fun hclosed => hsocket₂ (hsocket₁ hclosed), ?_⟩
    rcases hreceiver₂ with hsame | ⟨hnone, hlooping⟩
    · rw [hsame]
      exact hreceiver₁
    · rcases hreceiver₁ with hsame | ⟨_, hlooping'⟩
      · exact Or.inr ⟨hsame.symm.trans hnone, hlooping⟩
      · rw [hlooping'] at hnone
        cases hnone
  · rcases second.found other tcp' htcp' with hnone | hlooping | ⟨tcp, htcp, hsame⟩
    · exact Or.inl hnone
    · exact Or.inr (Or.inl hlooping)
    · rw [hsame]
      exact first.found other tcp htcp
  · rcases second.tasks task htask with hold | hnew
    · exact first.tasks task hold
    · exact Or.inr hnew

theorem evolves_launch {task : Task} (h : task.closes = false) :
    Evolves manager (manager.launch task) := by
  have hsame : (manager.launch task).connections = manager.connections := rfl
  refine Evolves.of_same hsame fun other hother => ?_
  rcases List.mem_append.mp hother with hold | hnew
  · exact Or.inl hold
  · rw [List.mem_singleton.mp hnew]
    exact Or.inr h

theorem evolves_release : Evolves manager manager.release := .of_same rfl fun _ => Or.inl

theorem Request.task_closes (request : Request) : request.task.closes = false := by
  cases request with
  | _ => rfl

end Connections

section Steps

variable {manager after : LockedManager} {self : Option Nat} {outcome : Bool} {task : Task}
  {next : Option Task}

/-- The thread is inside `TCPConnection.close`. -/
def inClose : Task → Bool
  | .closing stage _ _ => stage != .getAndSet
  | _ => false

/-- A step outside `TCPConnection.close` changes no socket, and does not get past its start. -/
def Outside (manager after : LockedManager) (next : Option Task) : Prop :=
  Evolves manager after ∧ ∀ task, next = some task → inClose task = false

theorem outside_done (h : Evolves manager after) : Outside manager after none :=
  ⟨h, fun _ hnone => by cases hnone⟩

theorem outside_next (h : Evolves manager after) (htask : inClose task = false) :
    Outside manager after (some task) := by
  refine ⟨h, ?_⟩
  rintro _ ⟨⟩
  exact htask

theorem outside_acquire {inside : LockedManager → LockedManager × Task}
    (h : manager.acquire inside = some (after, next))
    (hinside : ∀ state, (inside state).1.connections = state.connections ∧
      (inside state).1.tasks = state.tasks ∧ inClose (inside state).2 = false) :
    Outside manager after next := by
  obtain ⟨hconnections, htasks, hnext⟩ := hinside { manager with locked := true }
  unfold acquire at h
  split at h
  · cases h
  · cases h
    refine outside_next ⟨?_, ?_, ?_⟩ hnext
    · rw [hconnections]
      exact (Evolves.refl manager).kept
    · rw [hconnections]
      exact (Evolves.refl manager).found
    · rw [htasks]
      exact fun _ => Or.inl

/-- A thread that is not closing a connection. -/
theorem advance_outside (hcloses : task.closes = false)
    (h : manager.advance self outcome task = some (after, next)) : Outside manager after next := by
  cases task with
  | connect mode =>
      rw [advance] at h
      refine outside_acquire h fun state => ?_
      dsimp only
      split
      · exact ⟨rfl, rfl, rfl⟩
      · exact ⟨rfl, rfl, rfl⟩
  | connected attempt =>
      cases h
      exact outside_done (evolves_release.trans (evolves_launch rfl))
  | construct attempt =>
      rw [advance] at h
      split at h
      · cases h
        exact outside_next evolves_construct rfl
      · cases h
        exact outside_next (.refl _) rfl
  | install attempt connection =>
      rw [advance] at h
      refine outside_acquire h fun state => ?_
      split
      · exact ⟨rfl, rfl, rfl⟩
      · exact ⟨rfl, rfl, rfl⟩
  | installed attempt connection accepted =>
      cases h
      cases accepted with
      | _ => exact outside_next evolves_release rfl
  | startReceiver attempt connection =>
      cases h
      exact outside_next evolves_start rfl
  | onConnectionSuccessful attempt =>
      cases h
      exact outside_done (.refl _)
  | constructFailed attempt =>
      rw [advance] at h
      exact outside_acquire h fun _ => ⟨rfl, rfl, rfl⟩
  | failureChecked attempt current =>
      cases h
      cases current with
      | true => exact outside_next evolves_release rfl
      | false => exact outside_done evolves_release
  | onConnectionFailed attempt =>
      cases h
      exact outside_done (.refl _)
  | send required =>
      rw [advance] at h
      exact outside_acquire h fun _ => ⟨rfl, rfl, rfl⟩
  | sendChosen required chosen =>
      cases h
      cases chosen with
      | some connection => exact outside_next evolves_release rfl
      | none =>
          cases required with
          | true => exact outside_next evolves_release rfl
          | false => exact outside_done evolves_release
  | sending connection =>
      cases h
      cases outcome with
      | true => exact outside_done (.refl _)
      | false => exact outside_next (.refl _) rfl
  | sendFailed =>
      rw [advance] at h
      exact outside_acquire h fun _ => ⟨rfl, rfl, rfl⟩
  | failureChosen chosen =>
      cases h
      cases chosen with
      | some connection => exact outside_done (evolves_release.trans (evolves_launch rfl))
      | none => exact outside_done evolves_release
  | disconnect connection =>
      rw [advance] at h
      refine outside_acquire h fun state => ?_
      split
      · exact ⟨rfl, rfl, rfl⟩
      · exact ⟨rfl, rfl, rfl⟩
  | disconnectChecked connection current =>
      cases h
      cases current with
      | true => exact outside_next evolves_release rfl
      | false => exact outside_done evolves_release
  | onDisconnected =>
      cases h
      exact outside_done (.refl _)
  | close =>
      rw [advance] at h
      exact outside_acquire h fun _ => ⟨rfl, rfl, rfl⟩
  | closeTaken old =>
      cases h
      cases old with
      | some connection => exact outside_next evolves_release rfl
      | none => exact outside_done evolves_release
  | query =>
      rw [advance] at h
      exact outside_acquire h fun _ => ⟨rfl, rfl, rfl⟩
  | queried =>
      cases h
      exact outside_done evolves_release
  | closing stage connection caller => cases hcloses

theorem evolves_afterClose (manager : LockedManager) (caller : CloseCaller) :
    Outside manager (manager.afterClose caller).1 (manager.afterClose caller).2 := by
  cases caller with
  | connectInternal mode => exact outside_next (.of_same rfl fun _ => Or.inl) rfl
  | rejected => exact outside_done (.refl _)
  | onDisconnected => exact outside_next (.refl _) rfl
  | close => exact outside_done (.refl _)

/-- The socket of a connection is closed. -/
def SocketClosed (manager : LockedManager) (connection : Nat) : Prop :=
  ∃ tcp : TCPConnection, manager.connections[connection]? = some tcp ∧ tcp.socketOpen = false

/-- How a thread gets to where it stands inside `TCPConnection.close`: to the check of the
thread with the socket closed, and to the join only from there. -/
inductive Entered (before after : LockedManager) (self : Option Nat) (prior : Task) : Task → Prop
  | socket (connection : Nat) (caller : CloseCaller) :
      Entered before after self prior (.closing .closeSocket connection caller)
  | thread (connection : Nat) (caller : CloseCaller) (hclosed : after.SocketClosed connection) :
      Entered before after self prior (.closing .checkThread connection caller)
  | join (connection : Nat) (caller : CloseCaller)
      (hprior : prior = .closing .checkThread connection caller) (hself : self ≠ some connection)
      (hsame : after = before) : Entered before after self prior (.closing .join connection caller)

theorem advanceClose_spec {stage : CloseStage} {connection : Nat} {caller : CloseCaller}
    (h : manager.advanceClose self stage connection caller = some (after, next)) :
    Evolves manager after ∧ ∀ task, next = some task → inClose task = true →
      Entered manager after self (.closing stage connection caller) task := by
  -- Back from `close`, the thread is outside.
  have hleft : manager.afterClose caller = (after, next) →
      Evolves manager after ∧ ∀ task, next = some task → ¬ inClose task = true := by
    intro hpair
    have houtside := evolves_afterClose manager caller
    rw [hpair] at houtside
    refine ⟨houtside.1, fun task htask htrue => ?_⟩
    rw [houtside.2 task htask] at htrue
    cases htrue
  unfold advanceClose at h
  split at h
  · cases h
  · next tcp htcp =>
      cases stage with
      | getAndSet =>
          dsimp only at h
          split at h
          · cases h
            refine ⟨evolves_stop, ?_⟩
            rintro _ ⟨⟩ _
            exact .socket connection caller
          · obtain ⟨hevolves, hback⟩ := hleft (Option.some.inj h)
            exact ⟨hevolves, fun task htask htrue => absurd htrue (hback task htask)⟩
      | closeSocket =>
          cases h
          refine ⟨evolves_closeSocket, ?_⟩
          rintro _ ⟨⟩ _
          refine .thread connection caller ⟨{ tcp with socketOpen := false }, ?_, rfl⟩
          rw [closeSocket, getElem?_change, htcp, Option.map_some, if_pos rfl]
      | checkThread =>
          dsimp only at h
          split at h
          · next hjoin =>
              cases h
              refine ⟨.refl _, ?_⟩
              rintro _ ⟨⟩ _
              exact .join connection caller rfl hjoin.2 rfl
          · obtain ⟨hevolves, hback⟩ := hleft (Option.some.inj h)
            exact ⟨hevolves, fun task htask htrue => absurd htrue (hback task htask)⟩
      | join =>
          obtain ⟨hevolves, hback⟩ := hleft (Option.some.inj h)
          exact ⟨hevolves, fun task htask htrue => absurd htrue (hback task htask)⟩

theorem advance_spec (h : manager.advance self outcome task = some (after, next)) :
    Evolves manager after ∧ ∀ other, next = some other → inClose other = true →
      Entered manager after self task other := by
  cases hcloses : task.closes with
  | false =>
      obtain ⟨hevolves, hout⟩ := advance_outside hcloses h
      refine ⟨hevolves, fun other hother htrue => ?_⟩
      rw [hout other hother] at htrue
      cases htrue
  | true =>
      cases task with
      | closing stage connection caller => exact advanceClose_spec h
      | _ => cases hcloses

/-- Behind the lock of `close` there is no way back to it. -/
theorem advance_released (hreleased : task.released = true)
    (h : manager.advance self outcome task = some (after, next)) :
    ∀ other, next = some other → other.released = true := by
  cases task with
  | closing stage connection caller =>
      cases caller with
      | close =>
          rw [advance, advanceClose] at h
          split at h
          · cases h
          · cases stage with
            | getAndSet =>
                dsimp only at h
                split at h
                · cases h
                  rintro _ ⟨⟩
                  rfl
                · cases h
                  rintro _ ⟨⟩
            | closeSocket =>
                cases h
                rintro _ ⟨⟩
                rfl
            | checkThread =>
                dsimp only at h
                split at h
                · cases h
                  rintro _ ⟨⟩
                  rfl
                · cases h
                  rintro _ ⟨⟩
            | join =>
                cases h
                rintro _ ⟨⟩
      | _ => cases hreleased
  | _ => cases hreleased

theorem Request.task_inClose (request : Request) : inClose request.task = false := by
  cases request with
  | _ => rfl

/-- A step of a receiver thread moves it, beside what else changes. With its socket closed and
nothing in hand, it comes to have nothing in hand. -/
theorem advanceReceiver_spec {connection : Nat} {tcp : TCPConnection} {calls : List Request}
    {receiver : Receiver}
    (h : manager.advanceReceiver connection tcp outcome calls receiver = some after) :
    ∃ middle position, after = middle.move connection position ∧ Evolves manager middle ∧
      (∀ task later, position = .calling task later → inClose task = true →
        ∃ prior later, receiver = .calling prior later ∧
          Entered manager middle (some connection) prior task) ∧
      (tcp.socketOpen = false → receiver.engaged = false → position.engaged = false) := by
  cases receiver with
  | looping =>
      cases h
      refine ⟨manager, _, rfl, .refl _, ?_, ?_⟩
      · split
        · rintro _ _ ⟨⟩
        · rintro _ _ ⟨⟩
      · intro _ _
        split
        · rfl
        · rfl
  | reading =>
      rw [advanceReceiver] at h
      split at h
      · split at h
        · next hopen =>
            cases h
            refine ⟨manager, _, rfl, .refl _, by rintro _ _ ⟨⟩, fun hclosed _ => ?_⟩
            rw [hclosed] at hopen
            cases hopen
        · cases h
      · cases h
        exact ⟨manager, _, rfl, .refl _, by rintro _ _ ⟨⟩, fun _ _ => rfl⟩
  | received =>
      cases h
      refine ⟨manager, _, rfl, .refl _, ?_, fun _ hengaged => by cases hengaged⟩
      split
      · rintro _ _ ⟨⟩
      · rintro _ _ ⟨⟩
  | waiting =>
      rw [advanceReceiver] at h
      split at h
      · cases h
      · cases h
        exact ⟨{ manager with locked := true }, _, rfl, .of_same rfl fun _ => Or.inl,
          by rintro _ _ ⟨⟩, fun _ hengaged => by cases hengaged⟩
  | checked current =>
      cases h
      refine ⟨manager.release, _, rfl, evolves_release, ?_, fun _ hengaged => by cases hengaged⟩
      split
      · rintro _ _ ⟨⟩
      · rintro _ _ ⟨⟩
  | callback pending =>
      cases pending with
      | nil =>
          cases h
          refine ⟨manager, _, rfl, .refl _, ?_, ?_⟩
          · split
            · rintro _ _ ⟨⟩
            · rintro _ _ ⟨⟩
          · intro _ _
            split
            · rfl
            · rfl
      | cons request later =>
          rw [advanceReceiver] at h
          split at h
          · cases h
            refine ⟨manager.launch request.task, _, rfl,
              evolves_launch (Request.task_closes request), by rintro _ _ ⟨⟩, fun _ hengaged => ?_⟩
            rw [Receiver.engaged, List.any_cons, Bool.or_eq_false_iff] at hengaged
            exact hengaged.2
          · next hruns =>
              cases h
              refine ⟨manager, _, rfl, .refl _, ?_, fun _ hengaged => ?_⟩
              · rintro _ _ ⟨⟩ htrue
                rw [Request.task_inClose] at htrue
                cases htrue
              · rw [Receiver.engaged, List.any_cons, Bool.or_eq_false_iff] at hengaged
                rw [Bool.not_eq_true] at hruns
                rw [hruns] at hengaged
                cases hengaged.1
  | calling task later =>
      rw [advanceReceiver] at h
      split at h
      · cases h
      · next middle other hadvance =>
          cases h
          obtain ⟨hevolves, hentered⟩ := advance_spec hadvance
          refine ⟨middle, _, rfl, hevolves, ?_, fun _ hengaged => ?_⟩
          · rintro _ _ ⟨⟩ htrue
            exact ⟨task, later, rfl, hentered other rfl htrue⟩
          · rw [Receiver.engaged, Bool.or_eq_false_iff, Bool.not_eq_false'] at hengaged
            have hreleased := advance_released hengaged.1 hadvance other rfl
            rw [Receiver.engaged, hreleased, hengaged.2]
            rfl
      · next middle hadvance =>
          cases h
          obtain ⟨hevolves, _⟩ := advance_spec hadvance
          refine ⟨middle, _, rfl, hevolves, by rintro _ _ ⟨⟩, fun _ hengaged => ?_⟩
          rw [Receiver.engaged, Bool.or_eq_false_iff] at hengaged
          exact hengaged.2
  | ending =>
      rw [advanceReceiver] at h
      split at h
      · cases h
        exact ⟨(manager.stop connection).launch (.disconnect connection), _, rfl,
          evolves_stop.trans (evolves_launch rfl), by rintro _ _ ⟨⟩, fun _ _ => rfl⟩
      · cases h
        exact ⟨manager, _, rfl, .refl _, by rintro _ _ ⟨⟩, fun _ _ => rfl⟩
  | closingSocket =>
      cases h
      exact ⟨manager.closeSocket connection, _, rfl, evolves_closeSocket, by rintro _ _ ⟨⟩,
        fun _ _ => rfl⟩
  | ended => cases h

end Steps

section Invariant

variable {manager after : LockedManager} {connection : Nat}

/-- The socket of a connection is closed, and its receiver thread has nothing in hand. -/
def Calm (manager : LockedManager) (connection : Nat) : Prop :=
  ∃ tcp : TCPConnection, manager.connections[connection]? = some tcp ∧ tcp.socketOpen = false ∧
    ∀ receiver, tcp.receiver = some receiver → receiver.engaged = false

theorem SocketClosed.evolves (h : manager.SocketClosed connection) (hevolves : Evolves manager after) :
    after.SocketClosed connection := by
  obtain ⟨tcp, htcp, hclosed⟩ := h
  obtain ⟨tcp', htcp', hsocket, _⟩ := hevolves.kept connection tcp htcp
  exact ⟨tcp', htcp', hsocket hclosed⟩

theorem Calm.evolves (h : manager.Calm connection) (hevolves : Evolves manager after) :
    after.Calm connection := by
  obtain ⟨tcp, htcp, hclosed, hengaged⟩ := h
  obtain ⟨tcp', htcp', hsocket, hreceiver⟩ := hevolves.kept connection tcp htcp
  refine ⟨tcp', htcp', hsocket hclosed, fun receiver hposition => ?_⟩
  rcases hreceiver with hsame | ⟨_, hlooping⟩
  · exact hengaged receiver (hsame.symm.trans hposition)
  · rw [hlooping] at hposition
    cases hposition
    rfl

theorem SocketClosed.move (h : manager.SocketClosed connection) (self : Nat) (receiver : Receiver) :
    (manager.move self receiver).SocketClosed connection := by
  obtain ⟨tcp, htcp, hclosed⟩ := h
  refine ⟨_, by rw [LockedManager.move, getElem?_change, htcp, Option.map_some], ?_⟩
  split
  · exact hclosed
  · exact hclosed

theorem Calm.move {self : Nat} {receiver : Receiver} (h : manager.Calm connection)
    (hself : self = connection → receiver.engaged = false) :
    (manager.move self receiver).Calm connection := by
  obtain ⟨tcp, htcp, hclosed, hengaged⟩ := h
  refine ⟨_, by rw [LockedManager.move, getElem?_change, htcp, Option.map_some], ?_⟩
  split
  · next hsame =>
      refine ⟨hclosed, ?_⟩
      rintro _ ⟨⟩
      exact hself hsame
  · exact ⟨hclosed, hengaged⟩

/-- A thread that is inside `TCPConnection.close` was there before. -/
theorem Stands.evolves {task : Task} (h : after.Stands task) (hevolves : Evolves manager after)
    (hcloses : task.closes = true) : manager.Stands task := by
  rcases h with hmem | ⟨connection, tcp', calls, htcp', hreceiver⟩
  · rcases hevolves.tasks task hmem with hold | hnew
    · exact Or.inl hold
    · rw [hnew] at hcloses
      cases hcloses
  · rcases hevolves.found connection tcp' htcp' with hnone | hlooping | ⟨tcp, htcp, hsame⟩
    · rw [hnone] at hreceiver
      cases hreceiver
    · rw [hlooping] at hreceiver
      cases hreceiver
    · exact Or.inr ⟨connection, tcp, calls, htcp, hsame.symm.trans hreceiver⟩

theorem stands_launch {task other : Task} (h : (manager.launch task).Stands other) :
    other = task ∨ manager.Stands other := by
  rcases h with hmem | hreceiver
  · rcases List.mem_append.mp hmem with hold | hnew
    · exact Or.inr (Or.inl hold)
    · exact Or.inl (List.mem_singleton.mp hnew)
  · exact Or.inr (Or.inr hreceiver)

theorem stands_move {self : Nat} {receiver : Receiver} {task : Task}
    (h : (manager.move self receiver).Stands task) :
    (∃ calls, receiver = .calling task calls) ∨ manager.Stands task := by
  rcases h with hmem | ⟨connection, tcp', calls, htcp', hreceiver⟩
  · exact Or.inr (Or.inl hmem)
  · rw [LockedManager.move, getElem?_change] at htcp'
    obtain ⟨tcp, htcp, rfl⟩ := Option.map_eq_some_iff.mp htcp'
    split at hreceiver
    · cases hreceiver
      exact Or.inl ⟨calls, rfl⟩
    · exact Or.inr (Or.inr ⟨connection, tcp, calls, htcp, hreceiver⟩)

/-- A socket is closed before its thread is checked, and under the lock only calm receiver
threads are waited for. -/
structure JoinsCalm (manager : LockedManager) : Prop where
  closed : ∀ connection caller, manager.Stands (.closing .checkThread connection caller) →
    manager.SocketClosed connection
  calm : ∀ connection mode, manager.Stands (.closing .join connection (.connectInternal mode)) →
    manager.Calm connection

/-- Closed and without a receiver that has something in hand. -/
theorem SocketClosed.calm (h : manager.SocketClosed connection)
    (hdisengaged : manager.Disengaged connection) : manager.Calm connection := by
  obtain ⟨tcp, htcp, hclosed⟩ := h
  exact ⟨tcp, htcp, hclosed, fun receiver hreceiver => hdisengaged tcp receiver htcp hreceiver⟩

theorem JoinsCalm.evolves (h : manager.JoinsCalm) (hevolves : Evolves manager after) :
    after.JoinsCalm where
  closed := fun connection caller hstands =>
    (h.closed connection caller (hstands.evolves hevolves rfl)).evolves hevolves
  calm := fun connection mode hstands =>
    (h.calm connection mode (hstands.evolves hevolves rfl)).evolves hevolves

/-- A task takes its next step. -/
theorem joinsCalm_proceed {task : Task} {outcome : Bool} (h : manager.JoinsCalm)
    (hcondition : manager.JoinsDisengaged (.proceed task outcome))
    (hstep : manager.step (.proceed task outcome) = some after) : after.JoinsCalm := by
  rw [step] at hstep
  split at hstep
  · next hmem =>
      have herase : Evolves manager { manager with tasks := manager.tasks.erase task } :=
        .of_same rfl fun _ hother => Or.inl (List.mem_of_mem_erase hother)
      split at hstep
      · cases hstep
      · next advanced next hadvance =>
          cases hstep
          obtain ⟨hevolves, hentered⟩ := advance_spec hadvance
          have hkept := h.evolves (herase.trans hevolves)
          constructor
          · intro connection caller hstands
            rcases stands_launch hstands with rfl | hstands
            · cases hentered _ rfl rfl with
              | thread _ _ hclosed => exact hclosed
            · exact hkept.closed connection caller hstands
          · intro connection mode hstands
            rcases stands_launch hstands with rfl | hstands
            · cases hentered _ rfl rfl with
              | join _ _ hprior hself hsame =>
                  subst hprior
                  have hclosed := h.closed connection _ (Or.inl hmem)
                  have hcalm : advanced.Calm connection :=
                    (hclosed.calm hcondition).evolves (herase.trans hevolves)
                  exact hcalm
            · exact hkept.calm connection mode hstands
      · next advanced hadvance =>
          cases hstep
          exact h.evolves (herase.trans (advance_spec hadvance).1)
  · cases hstep

/-- A receiver thread takes its next step. -/
theorem joinsCalm_receive {self : Nat} {outcome : Bool} {calls : List Request}
    (h : manager.JoinsCalm) (hcondition : manager.JoinsDisengaged (.receive self outcome calls))
    (hstep : manager.step (.receive self outcome calls) = some after) : after.JoinsCalm := by
  rw [step] at hstep
  split at hstep
  · cases hstep
  · next tcp htcp =>
      split at hstep
      · cases hstep
      · next receiver hreceiver =>
          obtain ⟨middle, position, rfl, hevolves, hentered, hcalm⟩ := advanceReceiver_spec hstep
          have hkept := h.evolves hevolves
          -- A connection that was calm is so after the step, whoever took it.
          have hstill : ∀ {connection : Nat}, manager.Calm connection →
              (middle.move self position).Calm connection := by
            intro connection hbefore
            refine (hbefore.evolves hevolves).move ?_
            rintro rfl
            obtain ⟨tcp', htcp', hclosed, hengaged⟩ := hbefore
            rw [htcp] at htcp'
            cases htcp'
            exact hcalm hclosed (hengaged receiver hreceiver)
          constructor
          · intro connection caller hstands
            rcases stands_move hstands with ⟨later, rfl⟩ | hstands
            · obtain ⟨prior, _, _, hprior⟩ := hentered _ _ rfl rfl
              cases hprior with
              | thread _ _ hclosed => exact hclosed.move _ _
            · exact (hkept.closed connection caller hstands).move _ _
          · intro connection mode hstands
            rcases stands_move hstands with ⟨later, rfl⟩ | hstands
            · obtain ⟨prior, before, hposition, hprior⟩ := hentered _ _ rfl rfl
              cases hprior with
              | join _ _ hprior hself hsame =>
                  subst hprior
                  rw [hposition] at hreceiver
                  have hclosed := h.closed connection _ (Or.inr ⟨self, tcp, before, htcp, hreceiver⟩)
                  have hother : connection ≠ self := fun hsame => hself (by rw [hsame])
                  exact hstill (hclosed.calm
                    (hcondition tcp connection mode before htcp hreceiver hother))
            · exact hstill (h.calm connection mode (hstands.evolves hevolves rfl))

theorem joinsCalm_step {action : LockAction} (h : manager.JoinsCalm)
    (hcondition : manager.JoinsDisengaged action) (hstep : manager.step action = some after) :
    after.JoinsCalm := by
  cases action with
  | call request =>
      cases hstep
      exact h.evolves (evolves_launch (Request.task_closes request))
  | proceed task outcome => exact joinsCalm_proceed h hcondition hstep
  | receive self outcome calls => exact joinsCalm_receive h hcondition hstep

/-- Only `connectInternal` waits for a receiver thread under the lock. -/
theorem holds_joins {task : Task} (hholds : task.holds = true)
    (hjoins : task.joins = some connection) :
    ∃ mode, task = .closing .join connection (.connectInternal mode) := by
  cases task with
  | closing stage other caller =>
      cases stage with
      | join =>
          cases caller with
          | connectInternal mode =>
              cases hjoins
              exact ⟨mode, rfl⟩
          | _ => cases hholds
      | _ => cases hjoins
  | _ => cases hjoins

theorem JoinsCalm.excludes (h : manager.JoinsCalm) : ¬ manager.LockAndJoin := by
  rintro ⟨task, connection, hstands, hholds, hjoins, tcp, htcp, hwaits⟩
  obtain ⟨mode, rfl⟩ := holds_joins hholds hjoins
  obtain ⟨tcp', htcp', _, hengaged⟩ := h.calm connection mode hstands
  rw [htcp] at htcp'
  cases htcp'
  rcases hwaits with hwaiting | ⟨task, calls, hcalling, hwaits⟩
  · cases hengaged _ hwaiting
  · have hreleased := hengaged _ hcalling
    rw [Receiver.engaged, Bool.or_eq_false_iff, Bool.not_eq_false'] at hreleased
    cases task with
    | closing stage other caller => cases hwaits
    | _ => cases hreleased.1

end Invariant

end LockedManager

/-- As long as `connectInternal` waits under the lock only for receiver threads that have
nothing in hand, none of them comes to wait for the lock. -/
theorem no_lockAndJoin {manager : LockedManager}
    (h : (lockMachine.restrict LockedManager.JoinsDisengaged).Reachable manager) :
    ¬ manager.LockAndJoin := by
  have hinitial : ∀ state : LockedManager, state = {} → state.JoinsCalm := by
    rintro state rfl
    constructor
    · rintro connection caller (hmem | ⟨other, tcp, calls, htcp, _⟩)
      · cases hmem
      · cases htcp
    · rintro connection mode (hmem | ⟨other, tcp, calls, htcp, _⟩)
      · cases hmem
      · cases htcp
  have hkept : ∀ (state : LockedManager) action next, state.JoinsCalm →
      state.JoinsDisengaged action ∧ state.step action = some next → next.JoinsCalm :=
    fun state action next hstate hstep => LockedManager.joinsCalm_step hstate hstep.1 hstep.2
  exact (h.invariant hinitial hkept).excludes

section Crossing

/-- A connection is made, and its receiver thread starts to read. -/
def connectAndRead : List LockAction :=
  [.call (.connect .wifi), .proceed (.connect .wifi) true, .proceed (.connected ⟨1, .wifi⟩) true,
    .proceed (.construct ⟨1, .wifi⟩) true, .proceed (.install ⟨1, .wifi⟩ 0) true,
    .proceed (.installed ⟨1, .wifi⟩ 0 true) true, .proceed (.startReceiver ⟨1, .wifi⟩ 0) true,
    .receive 0 true []]

/-- A frame is read and brought to the listener. -/
def bringFrame : List LockAction := [.receive 0 true [], .receive 0 true []]

/-- The next `connect` drops the connection. -/
def reconnect : List LockAction :=
  [.call (.connect .wifi), .proceed (.connect .wifi) true,
    .proceed (.closing .getAndSet 0 (.connectInternal .wifi)) true,
    .proceed (.closing .closeSocket 0 (.connectInternal .wifi)) true,
    .proceed (.closing .checkThread 0 (.connectInternal .wifi)) true]

def dropping (receiver : Receiver) : LockedManager where
  locked := true
  connectGeneration := 2
  tcpConn := some 0
  connections := [⟨false, false, some receiver⟩]
  tasks := [.onConnectionSuccessful ⟨1, .wifi⟩, .closing .join 0 (.connectInternal .wifi)]

/-- The receiver thread comes to the lock with its frame while the connection is dropped. -/
theorem lockAndJoin_reachable :
    ¬ ∀ manager, lockMachine.Reachable manager → ¬ manager.LockAndJoin := by
  intro h
  have hrun : Machine.run LockedManager.step {} (connectAndRead ++ bringFrame ++ reconnect) =
      some (dropping .waiting) := rfl
  apply h (dropping .waiting) (Machine.reachable_of_run hrun)
  refine ⟨.closing .join 0 (.connectInternal .wifi), 0, Or.inl ?_, rfl, rfl, ?_⟩
  · exact List.mem_cons_of_mem _ List.mem_cons_self
  · exact ⟨⟨false, false, some .waiting⟩, rfl, Or.inl rfl⟩

theorem along_connectAndRead :
    Machine.Along LockedManager.step LockedManager.JoinsDisengaged {}
      (connectAndRead ++ reconnect) := by
  have hreading : ∀ {state : LockedManager} {tcp : TCPConnection},
      state.connections[0]? = some tcp → tcp.receiver = some .looping →
        state.JoinsDisengaged (.receive 0 true []) := by
    intro state tcp htcp hlooping tcp' connection mode calls htcp' hcalling
    rw [htcp] at htcp'
    cases htcp'
    rw [hlooping] at hcalling
    cases hcalling
  have hidle : ∀ {state : LockedManager} {tcp : TCPConnection},
      state.connections[0]? = some tcp → tcp.receiver = some .reading →
        state.Disengaged 0 := by
    intro state tcp htcp hread tcp' receiver htcp' hreceiver
    rw [htcp] at htcp'
    cases htcp'
    rw [hread] at hreceiver
    cases hreceiver
    rfl
  iterate 7 refine (Machine.along_cons rfl).mpr ⟨trivial, ?_⟩
  refine (Machine.along_cons rfl).mpr ⟨hreading rfl rfl, ?_⟩
  iterate 4 refine (Machine.along_cons rfl).mpr ⟨trivial, ?_⟩
  refine (Machine.along_cons rfl).mpr ⟨hidle rfl rfl, ?_⟩
  exact trivial

/-- A connection is dropped while its receiver thread reads. -/
theorem no_lockAndJoin_reading : ¬ (dropping .reading).LockAndJoin :=
  no_lockAndJoin (Machine.Reachable.run (.initial rfl) along_connectAndRead rfl)

end Crossing

end OpenCam.Android.Locking
