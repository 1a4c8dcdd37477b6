import OpenCam.Linux.PairingSecrets
import OpenCam.Linux.SessionGating

/-!
Whole runs of the controller: `main` with the code of its calls in place of them, down to the
operations of the libraries. Every start of a media pipeline lies behind the gate of its own
connection, and that connection behind a draw and a display of its own.
-/

namespace OpenCam.Linux

open Octets Interaction Control

section Observations

end Observations

section Connection

variable {inetPton : Bytes → Bool} {clientIp : Bytes} {secret : Block 32} {pairingExpires : Time}
  {passes : Nat} {trace : Trace}

end Connection

section Program

variable {inetPton : Bytes → Bool} {localIp : Bytes} {passes sessionPasses : Nat}
  {events : List MainEvent} {trace : Trace}

/-- The handler of `main`'s calls. -/
abbrev Expanded (inetPton : Bytes → Bool) (sessionPasses : Nat) (events : List MainEvent)
    (trace : Trace) : Prop :=
  Prog.Expands (mainHandler inetPton sessionPasses) events trace

/-- What the loop does between a draw and the connection that it is for. -/
def Op.Waiting : Op → Prop
  | .now | .displayPairingQr _ | .pollListener _ | .accept4 | .close => True
  | _ => False

/-- Calls of which each is one operation. -/
theorem expanded_waits (h : Expanded inetPton sessionPasses events trace)
    (hwaits : ∀ event ∈ events, event.op.Waits) : ∀ event ∈ trace, Op.Waiting event.op := by
  induction h with
  | nil => simp
  | @cons event events front back run rest ih =>
      obtain ⟨hevent, hevents⟩ := List.forall_mem_cons.mp hwaits
      have hperforms : ∀ op : MainOp, op.Waits →
          (mainHandler inetPton sessionPasses op).Performs Op.Waiting := by
        intro op hop
        cases op with
        | randomSecret => exact absurd rfl hop.1
        | handleClient clientIp secret expires => exact absurd trivial hop.2
        | _ => exact ⟨trivial, fun _ => trivial⟩
      intro other hmem
      rcases List.mem_append.mp hmem with hfront | hback
      · exact (run.performs (hperforms _ hevent)).1 other hfront
      · exact ih hevents other hback

/-- A call that is one operation is in the trace as that operation. -/
theorem mem_expanded (h : Expanded inetPton sessionPasses events trace) {event : MainEvent}
    {op : Op} {res : op.Res} (hmem : event ∈ events)
    (hop : ∀ front, Runs (mainHandler inetPton sessionPasses event.op) front (.ret event.res) →
      front = [⟨op, res⟩]) : ⟨op, res⟩ ∈ trace := by
  induction h with
  | nil => cases hmem
  | cons run rest ih =>
      rcases List.mem_cons.mp hmem with rfl | hmem
      · rw [hop _ run]
        exact List.mem_append_left _ (List.mem_singleton_self _)
      · exact List.mem_append_right _ (ih hmem)

/-- The secret was drawn under a deadline that had been set before, displayed, and no
connection has been taken since. -/
def Displayed (localIp : Bytes) (secret : Block 32) (expires : Time) (trace : Trace) : Prop :=
  ∃ before pass : Trace, trace = before ++ ⟨.randBytes, some secret⟩ :: pass ∧
    ⟨.now, expires - PAIRING_LIFETIME⟩ ∈ before ∧
    ⟨.displayPairingQr (pairingPayload localIp secret), true⟩ ∈ pass ∧
    ∀ event ∈ pass, Op.Waiting event.op

theorem Prepared.displayed {secret : Block 32} {expires : Time}
    (h : Prepared localIp events secret expires)
    (hexpanded : Expanded inetPton sessionPasses events trace) :
    Displayed localIp secret expires trace := by
  obtain ⟨before, pass, rfl, hset, hshown, hwaits⟩ := h
  obtain ⟨front, back, rfl, hfront, hback⟩ := hexpanded.split
  cases hback with
  | @cons _ _ drawn rest run hrest =>
      obtain rfl : drawn = [⟨.randBytes, some secret⟩] := returns_perform_iff.mp run
      exact ⟨front, rest, rfl, mem_expanded hfront hset fun _ => returns_perform_iff.mp,
        mem_expanded hrest hshown fun _ => returns_perform_iff.mp, expanded_waits hrest hwaits⟩

end Program

end OpenCam.Linux
