import OpenCam.Android.ConnectionManager

/-!
The lock of `ConnectionManager.kt` and the receiver threads of `TCPConnection.kt`. Taking the
lock, leaving it, each stage of `TCPConnection.close` and each callback is a step. A thread is
known by where it stands; the receiver threads stand in their connections.
-/

namespace OpenCam.Android.Locking

open Interaction

/-- What a thread calls the manager for. The getters are one: each takes the lock to read. -/
inductive Request where
  | connect (mode : ConnectionMode)
  | close
  | sendDescriptor
  | sendErrorReport
  | query
deriving DecidableEq, Repr

/-- The next step of `TCPConnection.close`. -/
inductive CloseStage where
  | getAndSet
  | closeSocket
  | checkThread
  | join
deriving DecidableEq, Repr

/-- Where `TCPConnection.close` was called. Only `connectInternal` calls it under the lock. -/
inductive CloseCaller where
  | connectInternal (mode : ConnectionMode)
  | rejected
  | onDisconnected
  | close
deriving DecidableEq, Repr

/-- Where a thread stands in the manager. -/
inductive Task where
  -- `connectInternal` and its coroutine
  | connect (mode : ConnectionMode)
  | connected (attempt : Attempt)
  | construct (attempt : Attempt)
  | install (attempt : Attempt) (connection : Nat)
  | installed (attempt : Attempt) (connection : Nat) (accepted : Bool)
  | startReceiver (attempt : Attempt) (connection : Nat)
  | onConnectionSuccessful (attempt : Attempt)
  | constructFailed (attempt : Attempt)
  | failureChecked (attempt : Attempt) (current : Bool)
  | onConnectionFailed (attempt : Attempt)
  -- `sendDescriptor`, which needs a connection, and `sendErrorReport`
  | send (required : Bool)
  | sendChosen (required : Bool) (tcpConn : Option Nat)
  | sending (connection : Nat)
  | sendFailed
  | failureChosen (tcpConn : Option Nat)
  -- `onDisconnected`
  | disconnect (connection : Nat)
  | disconnectChecked (connection : Nat) (current : Bool)
  | onDisconnected
  -- `close` and the getters
  | close
  | closeTaken (old : Option Nat)
  | query
  | queried
  -- `TCPConnection.close`
  | closing (stage : CloseStage) (connection : Nat) (caller : CloseCaller)
deriving DecidableEq, Repr

namespace Task

/-- The next step is to take the lock. -/
def waits : Task → Bool
  | .connect _ | .install _ _ | .constructFailed _ | .send _ | .sendFailed | .disconnect _
  | .close | .query => true
  | _ => false

/-- The thread is inside a `synchronized` block. -/
def holds : Task → Bool
  | .connected _ | .installed _ _ _ | .failureChecked _ _ | .sendChosen _ _ | .failureChosen _
  | .disconnectChecked _ _ | .closeTaken _ | .queried => true
  | .closing _ _ (.connectInternal _) => true
  | _ => false

/-- The connection whose receiver thread is waited for. -/
def joins : Task → Option Nat
  | .closing .join connection _ => some connection
  | _ => none

def closes : Task → Bool
  | .closing _ _ _ => true
  | _ => false

end Task

def Request.task : Request → Task
  | .connect mode => .connect mode
  | .close => .close
  | .sendDescriptor => .send true
  | .sendErrorReport => .send false
  | .query => .query

/-- Sends are launched; the other calls run in the thread that makes them. -/
def Request.launched : Request → Bool
  | .sendDescriptor | .sendErrorReport => true
  | .connect _ | .close | .query => false

/-- Where a receiver thread stands in `receiveLoop`. -/
inductive Receiver where
  | looping
  | reading
  -- a frame, or bytes of the legacy transport, to be handed to the listener
  | received
  -- before and inside the `synchronized` block of the listener
  | waiting
  | checked (current : Bool)
  -- in the callback, with the calls of the manager it has still to make
  | callback (calls : List Request)
  | calling (task : Task) (calls : List Request)
  | ending
  | closingSocket
  | ended
deriving DecidableEq, Repr

structure TCPConnection where
  running : Bool := true
  socketOpen : Bool := true
  receiver : Option Receiver := none
deriving DecidableEq, Repr

/-- `tasks` are the threads that are not receivers: those of the application, the coroutines
and the tasks of the main thread. -/
structure LockedManager where
  locked : Bool := false
  connectGeneration : Nat := 0
  tcpConn : Option Nat := none
  connections : List TCPConnection := []
  tasks : List Task := []
deriving DecidableEq, Repr

inductive LockAction where
  | call (request : Request)
  | proceed (task : Task) (outcome : Bool)
  | receive (connection : Nat) (outcome : Bool) (calls : List Request)
deriving DecidableEq, Repr

namespace LockedManager

variable (manager : LockedManager)

def launch (task : Task) : LockedManager := { manager with tasks := manager.tasks ++ [task] }

def change (connection : Nat) (f : TCPConnection → TCPConnection) : LockedManager :=
  { manager with connections := manager.connections.modify connection f }

/-- `running.getAndSet(false)`. -/
def stop (connection : Nat) : LockedManager :=
  manager.change connection fun tcp => { tcp with running := false }

def closeSocket (connection : Nat) : LockedManager :=
  manager.change connection fun tcp => { tcp with socketOpen := false }

def start (connection : Nat) : LockedManager :=
  manager.change connection fun tcp => { tcp with receiver := tcp.receiver.or (some .looping) }

/-- Move the receiver thread of a connection. -/
def move (connection : Nat) (receiver : Receiver) : LockedManager :=
  manager.change connection fun tcp => { tcp with receiver := some receiver }

/-- Take the lock, if it is free. -/
def acquire (inside : LockedManager → LockedManager × Task) :
    Option (LockedManager × Option Task) :=
  if manager.locked then none
  else
    let (after, task) := inside { manager with locked := true }
    some (after, some task)

def release : LockedManager := { manager with locked := false }

/-- What follows a call of `TCPConnection.close`. -/
def afterClose : CloseCaller → LockedManager × Option Task
  | .connectInternal mode =>
      ({ manager with tcpConn := none }, some (.connected ⟨manager.connectGeneration, mode⟩))
  | .rejected => (manager, none)
  | .onDisconnected => (manager, some .onDisconnected)
  | .close => (manager, none)

/-- One step of `TCPConnection.close`, for a thread that may be a receiver itself. The join
ends with the thread, after two seconds or by an interrupt. -/
def advanceClose (self : Option Nat) (stage : CloseStage) (connection : Nat)
    (caller : CloseCaller) : Option (LockedManager × Option Task) :=
  match manager.connections[connection]? with
  | none => none
  | some tcp =>
      match stage with
      | .getAndSet =>
          if tcp.running then
            some (manager.stop connection, some (.closing .closeSocket connection caller))
          else some (manager.afterClose caller)
      | .closeSocket =>
          some (manager.closeSocket connection, some (.closing .checkThread connection caller))
      | .checkThread =>
          if tcp.receiver ≠ none ∧ self ≠ some connection then
            some (manager, some (.closing .join connection caller))
          else some (manager.afterClose caller)
      | .join => some (manager.afterClose caller)

/-- The next step of a thread in the manager, and where it stands then. The outcome is that
of a construction or a send. -/
def advance (self : Option Nat) (outcome : Bool) : Task → Option (LockedManager × Option Task)
  | .connect mode => manager.acquire fun inside =>
      let advanced := { inside with connectGeneration := inside.connectGeneration + 1 }
      match advanced.tcpConn with
      | some connection => (advanced, .closing .getAndSet connection (.connectInternal mode))
      | none => (advanced, .connected ⟨advanced.connectGeneration, mode⟩)
  | .connected attempt => some (manager.release.launch (.construct attempt), none)
  | .construct attempt =>
      if outcome then
        some ({ manager with connections := manager.connections ++ [{}] },
          some (.install attempt manager.connections.length))
      else some (manager, some (.constructFailed attempt))
  | .install attempt connection => manager.acquire fun inside =>
      if attempt.generation ≠ inside.connectGeneration then
        (inside, .installed attempt connection false)
      else ({ inside with tcpConn := some connection }, .installed attempt connection true)
  | .installed attempt connection accepted => some (manager.release,
      some (if accepted then .startReceiver attempt connection
        else .closing .getAndSet connection .rejected))
  | .startReceiver attempt connection =>
      some (manager.start connection, some (.onConnectionSuccessful attempt))
  | .onConnectionSuccessful _ => some (manager, none)
  | .constructFailed attempt => manager.acquire fun inside =>
      (inside, .failureChecked attempt (attempt.generation = inside.connectGeneration))
  | .failureChecked attempt current =>
      some (manager.release, if current then some (.onConnectionFailed attempt) else none)
  | .onConnectionFailed _ => some (manager, none)
  | .send required => manager.acquire fun inside => (inside, .sendChosen required inside.tcpConn)
  | .sendChosen required chosen => some (manager.release,
      match chosen with
      | some connection => some (.sending connection)
      | none => if required then some .sendFailed else none)
  | .sending _ => some (manager, if outcome then none else some .sendFailed)
  | .sendFailed => manager.acquire fun inside => (inside, .failureChosen inside.tcpConn)
  | .failureChosen chosen => some (
      match chosen with
      | some connection => manager.release.launch (.disconnect connection)
      | none => manager.release, none)
  | .disconnect connection => manager.acquire fun inside =>
      if inside.tcpConn ≠ some connection then (inside, .disconnectChecked connection false)
      else ({ inside with tcpConn := none }, .disconnectChecked connection true)
  | .disconnectChecked connection current => some (manager.release,
      if current then some (.closing .getAndSet connection .onDisconnected) else none)
  | .onDisconnected => some (manager, none)
  | .close => manager.acquire fun inside =>
      ({ inside with connectGeneration := inside.connectGeneration + 1, tcpConn := none },
        .closeTaken inside.tcpConn)
  | .closeTaken old =>
      some (manager.release, old.map fun connection => .closing .getAndSet connection .close)
  | .query => manager.acquire fun inside => (inside, .queried)
  | .queried => some (manager.release, none)
  | .closing stage connection caller => manager.advanceClose self stage connection caller

/-- The next step of the receiver thread of a connection. A read succeeds only while the
socket is open; a frame may be refused, and a callback may throw. -/
def advanceReceiver (connection : Nat) (tcp : TCPConnection) (outcome : Bool)
    (calls : List Request) : Receiver → Option LockedManager
  | .looping => some (manager.move connection (if tcp.running then .reading else .ending))
  | .reading =>
      if outcome then
        if tcp.socketOpen then some (manager.move connection .received) else none
      else some (manager.move connection .ending)
  | .received => some (manager.move connection (if outcome then .waiting else .ending))
  | .waiting =>
      if manager.locked then none
      else some ({ manager with locked := true }.move connection
        (.checked (manager.tcpConn = some connection)))
  | .checked current =>
      some (manager.release.move connection (if current then .callback calls else .looping))
  | .callback [] => some (manager.move connection (if outcome then .looping else .ending))
  | .callback (request :: later) =>
      if request.launched then some ((manager.launch request.task).move connection (.callback later))
      else some (manager.move connection (.calling request.task later))
  | .calling task later =>
      match manager.advance (some connection) outcome task with
      | none => none
      | some (after, some next) => some (after.move connection (.calling next later))
      | some (after, none) => some (after.move connection (.callback later))
  | .ending =>
      if tcp.running then
        some (((manager.stop connection).launch (.disconnect connection)).move connection
          .closingSocket)
      else some (manager.move connection .closingSocket)
  | .closingSocket => some ((manager.closeSocket connection).move connection .ended)
  | .ended => none

def step : LockAction → Option LockedManager
  | .call request => some (manager.launch request.task)
  | .proceed task outcome =>
      if task ∈ manager.tasks then
        match { manager with tasks := manager.tasks.erase task }.advance none outcome task with
        | none => none
        | some (after, some next) => some (after.launch next)
        | some (after, none) => some after
      else none
  | .receive connection outcome calls =>
      match manager.connections[connection]? with
      | none => none
      | some tcp =>
          match tcp.receiver with
          | none => none
          | some receiver => manager.advanceReceiver connection tcp outcome calls receiver

end LockedManager

def lockMachine : Machine LockedManager LockAction := .ofStep {} LockedManager.step

end OpenCam.Android.Locking
