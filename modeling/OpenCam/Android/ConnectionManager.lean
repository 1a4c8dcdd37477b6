import OpenCam.Interaction.Machine
import Mathlib.Logic.Function.Basic
import Mathlib.Data.List.Basic

/-!
`ConnectionManager.kt` with the lifetime of its `TCPConnection`s. Every
coroutine, receiver thread and main-thread task is an activity that stands
before its next atomic step: a `synchronized` block, a send, a call of
`TCPConnection` or a callback. Any activity may go next. An attempt to connect
constructs one connection at most, so its generation names the connection.
-/

namespace OpenCam.Android

open Interaction

inductive ConnectionMode where
  | wifi
  | usb
deriving DecidableEq, Repr

/-- What a coroutine of `connectInternal` was started with. -/
structure Attempt where
  generation : Nat
  mode : ConnectionMode
deriving DecidableEq, Repr

/-- Why `onDisconnected` was called: a receiver thread has ended, or a send has
thrown. A send without a connection throws as well. -/
inductive Cause where
  | receiver
  | failedSend (connection : Option Nat)
deriving DecidableEq, Repr

/-- Where an activity stands. -/
inductive Activity where
  -- `connectInternal`
  | constructing (attempt : Attempt)
  | constructed (attempt : Attempt)
  | accepted (attempt : Attempt)
  | started (attempt : Attempt)
  | rejected (attempt : Attempt)
  | failed (attempt : Attempt)
  | failedCurrent (attempt : Attempt)
  -- `sendDescriptor` and `sendErrorReport`
  | sendDescriptor
  | sendErrorReport
  | sending (connection : Nat)
  | sendFailed (connection : Option Nat)
  -- `receiveLoop`
  | receiving (connection : Nat)
  -- `onDisconnected`
  | disconnecting (connection : Nat) (cause : Cause)
  | removed (connection : Nat) (cause : Cause)
  | closed (connection : Nat) (cause : Cause)
  -- `close`
  | closing (connection : Nat)
deriving DecidableEq, Repr

/-- The callbacks, and what an `onDisconnected` task has done. A successful
attempt is listed with what the manager holds at that moment. -/
inductive ConnectionEvent where
  | onConnectionSuccessful (attempt : Attempt) (connectGeneration : Nat) (tcpConn : Option Nat)
  | onConnectionFailed (attempt : Attempt)
  | removed (connection : Nat) (cause : Cause)
  | closed (connection : Nat) (cause : Cause)
  | onDisconnected (connection : Nat) (cause : Cause)
deriving DecidableEq, Repr

/-- `running` is that of the connection of an attempt, once it is constructed. -/
structure ConnectionManager where
  connectGeneration : Nat := 0
  tcpConn : Option Nat := none
  running : Nat → Option Bool := fun _ => none
  activities : List Activity := []
  events : List ConnectionEvent := []

inductive ConnectionAction where
  | connect (mode : ConnectionMode)
  | close
  | sendDescriptor
  | sendErrorReport
  | proceed (activity : Activity) (outcome : Bool)
deriving DecidableEq, Repr

namespace ConnectionManager

variable (manager : ConnectionManager)

def launch (activity : Activity) : ConnectionManager :=
  { manager with activities := manager.activities ++ [activity] }

/-- `TCPConnection.close`, and the end of `receiveLoop`. -/
def stop (connection : Nat) : ConnectionManager :=
  { manager with running := Function.update manager.running connection (some false) }

def report (event : ConnectionEvent) : ConnectionManager :=
  { manager with events := manager.events ++ [event] }

/-- `tcpConn = …`. -/
def hold (tcpConn : Option Nat) : ConnectionManager := { manager with tcpConn := tcpConn }

/-- `connectInternal` up to its coroutine. -/
def connectInternal (mode : ConnectionMode) : ConnectionManager :=
  let advanced := { manager with connectGeneration := manager.connectGeneration + 1 }
  let dropped :=
    match advanced.tcpConn with
    | some connection => (advanced.stop connection).hold none
    | none => advanced
  dropped.launch (.constructing ⟨dropped.connectGeneration, mode⟩)

/-- `close` up to the call on the old connection. -/
def close : ConnectionManager :=
  let advanced := { manager with connectGeneration := manager.connectGeneration + 1 }
  match advanced.tcpConn with
  | some connection => (advanced.hold none).launch (.closing connection)
  | none => advanced

/-- The next atomic step of an activity. The outcome is that of a construction
or a send. -/
def advance (outcome : Bool) : Activity → ConnectionManager
  | .constructing attempt =>
      if outcome then
        { manager with running := Function.update manager.running attempt.generation (some true)
        }.launch (.constructed attempt)
      else manager.launch (.failed attempt)
  | .constructed attempt =>
      if attempt.generation ≠ manager.connectGeneration then manager.launch (.rejected attempt)
      else (manager.hold (some attempt.generation)).launch (.accepted attempt)
  | .accepted attempt => (manager.launch (.receiving attempt.generation)).launch (.started attempt)
  | .started attempt => manager.report
      (.onConnectionSuccessful attempt manager.connectGeneration manager.tcpConn)
  | .rejected attempt => manager.stop attempt.generation
  | .failed attempt =>
      if attempt.generation = manager.connectGeneration then manager.launch (.failedCurrent attempt)
      else manager
  | .failedCurrent attempt => manager.report (.onConnectionFailed attempt)
  | .sendDescriptor =>
      match manager.tcpConn with
      | some connection => manager.launch (.sending connection)
      | none => manager.launch (.sendFailed none)
  | .sendErrorReport =>
      match manager.tcpConn with
      | some connection => manager.launch (.sending connection)
      | none => manager
  | .sending connection =>
      if outcome then manager else manager.launch (.sendFailed (some connection))
  | .sendFailed connection =>
      match manager.tcpConn with
      | some current => manager.launch (.disconnecting current (.failedSend connection))
      | none => manager
  | .receiving connection =>
      if manager.running connection = some true
      then (manager.stop connection).launch (.disconnecting connection .receiver)
      else manager
  | .disconnecting connection cause =>
      if manager.tcpConn ≠ some connection then manager
      else ((manager.hold none).report (.removed connection cause)).launch
        (.removed connection cause)
  | .removed connection cause =>
      ((manager.stop connection).report (.closed connection cause)).launch
        (.closed connection cause)
  | .closed connection cause => manager.report (.onDisconnected connection cause)
  | .closing connection => manager.stop connection

theorem connectInternal_eq (mode : ConnectionMode) :
    ∃ running, manager.connectInternal mode =
      { connectGeneration := manager.connectGeneration + 1
        tcpConn := none
        running := running
        activities := manager.activities ++
          [.constructing ⟨manager.connectGeneration + 1, mode⟩]
        events := manager.events } := by
  unfold connectInternal
  rcases Option.eq_none_or_eq_some manager.tcpConn with hheld | ⟨connection, hheld⟩
  · exact ⟨manager.running, by simp only [hheld]; rfl⟩
  · exact ⟨Function.update manager.running connection (some false), by simp only [hheld]; rfl⟩

theorem close_eq :
    ∃ closing : List Activity, (∀ activity ∈ closing, ∃ connection, activity = .closing connection) ∧
      manager.close =
        { manager with
          connectGeneration := manager.connectGeneration + 1
          tcpConn := none
          activities := manager.activities ++ closing } := by
  unfold close
  rcases Option.eq_none_or_eq_some manager.tcpConn with hheld | ⟨connection, hheld⟩
  · exact ⟨[], by simp, by simp [hheld]⟩
  · exact ⟨[.closing connection], by simp, by simp only [hheld]; rfl⟩

def step : ConnectionAction → Option ConnectionManager
  | .connect mode => some (manager.connectInternal mode)
  | .close => some manager.close
  | .sendDescriptor => some (manager.launch .sendDescriptor)
  | .sendErrorReport => some (manager.launch .sendErrorReport)
  | .proceed activity outcome =>
      if activity ∈ manager.activities then
        some ({ manager with activities := manager.activities.erase activity }.advance
          outcome activity)
      else none

end ConnectionManager

/-- The manager from its creation on. -/
def connectionMachine : Machine ConnectionManager ConnectionAction :=
  .ofStep {} ConnectionManager.step

end OpenCam.Android
