import OpenCam.Interaction.Prog

/-!
Protocols of single programs. A monitor is an automaton over operations and
their answers which has no step where the protocol forbids an operation. A
program that follows a monitor does so whatever its environment answers, so a
thread of it may be interleaved with any others.
-/

namespace Interaction

variable {Op : Type} {Res : Op → Type} {α β σ τ : Type}

abbrev Monitor (Op : Type) (Res : Op → Type) (σ : Type) : Type :=
  σ → (op : Op) → Res op → Option σ

/-- The operations of a program are steps of the monitor, and what it returns
fits the state the monitor has reached. -/
def Prog.Follows (monitor : Monitor Op Res σ) (post : α → σ → Prop) : Prog Op Res α → σ → Prop
  | .ret value, state => post value state
  | .throw _, _ => True
  | .unfinished, _ => True
  | .call op next, state =>
      ∀ res, ∃ after, monitor state op res = some after ∧ (next res).Follows monitor post after

/-- Where the monitor is behind a trace, if it has a step for each of its events. -/
def Monitor.after (monitor : Monitor Op Res σ) : σ → List (Event Op Res) → Option σ
  | state, [] => some state
  | state, ⟨op, res⟩ :: rest => (monitor state op res).bind fun next => monitor.after next rest

theorem Monitor.after_append {monitor : Monitor Op Res σ} {state : σ}
    {front back : List (Event Op Res)} :
    monitor.after state (front ++ back) =
      (monitor.after state front).bind fun middle => monitor.after middle back := by
  induction front generalizing state with
  | nil => rfl
  | cons event front ih =>
      rw [List.cons_append, Monitor.after, Monitor.after, Option.bind_assoc]
      exact congrArg _ (funext fun _ => ih)

/-- Two monitors that watch the same operations. -/
def Monitor.both (first : Monitor Op Res σ) (second : Monitor Op Res τ) : Monitor Op Res (σ × τ)
  | (state, other), op, res =>
      (first state op res).bind fun state => (second other op res).map fun other => (state, other)

theorem Monitor.both_eq_some {first : Monitor Op Res σ} {second : Monitor Op Res τ} {state : σ}
    {other : τ} {op : Op} {res : Res op} {after : σ × τ} :
    first.both second (state, other) op res = some after ↔
      first state op res = some after.1 ∧ second other op res = some after.2 := by
  obtain ⟨state', other'⟩ := after
  cases hfirst : first state op res <;> cases hsecond : second other op res <;>
    simp [Monitor.both, hfirst, hsecond]

/-- Each of them is where it is on its own. -/
theorem Monitor.after_both {first : Monitor Op Res σ} {second : Monitor Op Res τ}
    {state : σ × τ} {trace : List (Event Op Res)} {after : σ × τ}
    (h : (first.both second).after state trace = some after) :
    first.after state.1 trace = some after.1 ∧ second.after state.2 trace = some after.2 := by
  induction trace generalizing state with
  | nil =>
      obtain rfl := Option.some.inj h
      exact ⟨rfl, rfl⟩
  | cons event rest ih =>
      obtain ⟨middle, hmiddle, hrest⟩ := Option.bind_eq_some_iff.mp h
      obtain ⟨hfirst, hsecond⟩ := Monitor.both_eq_some.mp hmiddle
      obtain ⟨hone, htwo⟩ := ih hrest
      exact ⟨by rw [Monitor.after, hfirst, Option.bind_some, hone],
        by rw [Monitor.after, hsecond, Option.bind_some, htwo]⟩

namespace Prog

variable {monitor : Monitor Op Res σ} {post : α → σ → Prop} {program : Prog Op Res α} {state : σ}

theorem Follows.mono {weaker : α → σ → Prop} (h : program.Follows monitor post state)
    (himplies : ∀ value after, post value after → weaker value after) :
    program.Follows monitor weaker state := by
  induction program generalizing state with
  | ret value => exact himplies value state h
  | throw error => trivial
  | unfinished => trivial
  | call op next ih =>
      intro res
      obtain ⟨after, hstep, hnext⟩ := h res
      exact ⟨after, hstep, ih res hnext⟩

theorem Follows.bind {next : α → Prog Op Res β} {final : β → σ → Prop}
    (first : program.Follows monitor post state)
    (second : ∀ value after, post value after → (next value).Follows monitor final after) :
    (program >>= next).Follows monitor final state := by
  induction program generalizing state with
  | ret value => exact second value state first
  | throw error => trivial
  | unfinished => trivial
  | call op rest ih =>
      intro res
      obtain ⟨after, hstep, hrest⟩ := first res
      exact ⟨after, hstep, ih res hrest⟩

/-- The monitor has a step for each event of a run, and what is left of the program goes on to
follow it. -/
theorem Follows.along {stop : Prog Op Res α} {trace : List (Event Op Res)}
    (h : program.Follows monitor post state) (run : Runs program trace stop) :
    ∃ after, monitor.after state trace = some after ∧ stop.Follows monitor post after := by
  induction run generalizing state with
  | here => exact ⟨state, rfl, h⟩
  | step _ ih =>
      obtain ⟨middle, hstep, hrest⟩ := h _
      obtain ⟨after, hafter, hstop⟩ := ih hrest
      exact ⟨after, by rw [Monitor.after, hstep, Option.bind_some, hafter], hstop⟩

/-- An operation on which the monitor stands still. -/
theorem follows_perform_bind {op : Op} {next : Res op → Prog Op Res α}
    (hstill : ∀ res, monitor state op res = some state)
    (hnext : ∀ res, (next res).Follows monitor post state) :
    (Prog.perform op >>= next).Follows monitor post state :=
  fun res => ⟨state, hstill res, hnext res⟩

/-- A program of operations that keep a condition on the monitor's state. -/
theorem follows_of_performs {Permitted : Op → Prop} {Kept : σ → Prop}
    (hkept : ∀ state op res, Kept state → Permitted op →
      ∃ after, monitor state op res = some after ∧ Kept after)
    (hperforms : program.Performs Permitted) (hstate : Kept state) :
    program.Follows monitor (fun _ after => Kept after) state := by
  induction program generalizing state with
  | ret value => exact hstate
  | throw error => trivial
  | unfinished => trivial
  | call op next ih =>
      intro res
      obtain ⟨after, hstep, hafter⟩ := hkept state op res hstate hperforms.1
      exact ⟨after, hstep, ih res (hperforms.2 res) hafter⟩

end Prog

end Interaction
