import Mathlib.Logic.Relation

/-!
Labelled transition systems. An invariant is proved once for the beginning and
once for a step; a condition on steps cuts a machine down to the runs that
meet it everywhere.
-/

namespace Interaction

variable {State Action : Type}

structure Machine (State Action : Type) where
  initial : State → Prop
  step : State → Action → State → Prop

namespace Machine

/-- The machine of a partial function. -/
def ofStep (start : State) (step : State → Action → Option State) : Machine State Action where
  initial := fun state => state = start
  step := fun state action next => step state action = some next

/-- The steps that meet a condition on the state before them. -/
def restrict (machine : Machine State Action) (condition : State → Action → Prop) :
    Machine State Action where
  initial := machine.initial
  step := fun state action next => condition state action ∧ machine.step state action next

inductive Reachable (machine : Machine State Action) : State → Prop
  | initial {state : State} (hinitial : machine.initial state) : Reachable machine state
  | step {state next : State} (action : Action) (hreachable : Reachable machine state)
      (hstep : machine.step state action next) : Reachable machine next

variable {machine : Machine State Action} {condition : State → Action → Prop}

theorem Reachable.of_restrict {state : State}
    (hreachable : (machine.restrict condition).Reachable state) : machine.Reachable state := by
  induction hreachable with
  | initial hinitial => exact .initial hinitial
  | step action _ hstep ih => exact .step action ih hstep.2

/-- What holds at the beginning and is kept by every step holds in every
reachable state. -/
theorem Reachable.invariant {Invariant : State → Prop}
    (hinitial : ∀ state, machine.initial state → Invariant state)
    (hkept : ∀ state action next, Invariant state → machine.step state action next →
      Invariant next)
    {state : State} (hreachable : machine.Reachable state) : Invariant state := by
  induction hreachable with
  | initial hstart => exact hinitial _ hstart
  | step action _ hstep ih => exact hkept _ action _ ih hstep

section Runs

variable {step : State → Action → Option State}

/-- The states of a run, as far as its actions can be taken. -/
def visited (step : State → Action → Option State) : State → List Action → List State
  | state, [] => [state]
  | state, action :: actions =>
      match step state action with
      | some next => state :: visited step next actions
      | none => [state]

/-- Every step of a run meets a condition on the state before it. -/
def Along (step : State → Action → Option State) (condition : State → Action → Prop) :
    State → List Action → Prop
  | _, [] => True
  | state, action :: actions => ∀ next, step state action = some next →
      condition state action ∧ Along step condition next actions

/-- The state behind a run, if all of its actions can be taken. -/
def run (step : State → Action → Option State) : State → List Action → Option State
  | state, [] => some state
  | state, action :: actions =>
      match step state action with
      | some next => run step next actions
      | none => none

/-- A run of a function whose steps are steps of the machine. -/
theorem Reachable.of_run {state final : State} {actions : List Action}
    (hstep : ∀ state action next, step state action = some next → machine.step state action next)
    (hreachable : machine.Reachable state)
    (hrun : Machine.run step state actions = some final) : machine.Reachable final := by
  induction actions generalizing state with
  | nil => exact Option.some.inj hrun ▸ hreachable
  | cons action actions ih =>
      rw [Machine.run] at hrun
      cases hnext : step state action with
      | none => simp [hnext] at hrun
      | some next =>
          rw [hnext] at hrun
          exact ih (.step action hreachable (hstep state action next hnext)) hrun

theorem along_cons {condition : State → Action → Prop} {state next : State} {action : Action}
    {actions : List Action} (hnext : step state action = some next) :
    Along step condition state (action :: actions) ↔
      condition state action ∧ Along step condition next actions := by
  simp [Along, hnext]

/-- A run whose steps all meet a condition is one of the restricted machine. -/
theorem Reachable.run {start state final : State} {actions : List Action}
    {condition : State → Action → Prop}
    (hreachable : ((ofStep start step).restrict condition).Reachable state)
    (halong : Along step condition state actions) (hrun : Machine.run step state actions = some final) :
    ((ofStep start step).restrict condition).Reachable final := by
  induction actions generalizing state with
  | nil => exact Option.some.inj hrun ▸ hreachable
  | cons action actions ih =>
      rw [Machine.run] at hrun
      cases hnext : step state action with
      | none => simp [hnext] at hrun
      | some next =>
          rw [hnext] at hrun
          obtain ⟨hcondition, hlater⟩ := halong next hnext
          exact ih (.step action hreachable ⟨hcondition, hnext⟩) hlater hrun

theorem along_of_forall {condition : State → Action → Prop}
    (hall : ∀ state action, condition state action) (state : State) (actions : List Action) :
    Along step condition state actions := by
  induction actions generalizing state with
  | nil => exact trivial
  | cons action actions ih => exact fun next _ => ⟨hall state action, ih next⟩

/-- Where a run leads can be reached. -/
theorem reachable_of_run {start final : State} {actions : List Action}
    (hrun : run step start actions = some final) : (ofStep start step).Reachable final :=
  Reachable.of_restrict (Reachable.run (.initial rfl)
    (along_of_forall (fun _ _ => trivial) start actions) hrun)

theorem mem_visited_self (state : State) (actions : List Action) :
    state ∈ visited step state actions := by
  cases actions with
  | nil => exact List.mem_singleton_self _
  | cons action actions =>
      rw [visited]
      split
      · exact List.mem_cons_self
      · exact List.mem_singleton_self _

/-- The exact condition of a property: a step that meets it keeps an invariant
that implies the property, and a step that does not breaks the property. -/
theorem visited_iff_along {condition : State → Action → Prop} {Invariant Property : State → Prop}
    (hholds : ∀ state, Invariant state → Property state)
    (hkept : ∀ state action next, Invariant state → step state action = some next →
      condition state action → Invariant next)
    (hbroken : ∀ state action next, Invariant state → step state action = some next →
      ¬ condition state action → ¬ Property next)
    {state : State} (hinvariant : Invariant state) (actions : List Action) :
    (∀ other ∈ visited step state actions, Property other) ↔
      Along step condition state actions := by
  induction actions generalizing state with
  | nil => simpa [visited, Along] using hholds state hinvariant
  | cons action actions ih =>
      rw [visited, Along]
      cases hnext : step state action with
      | none => simpa using hholds state hinvariant
      | some next =>
          simp only [List.forall_mem_cons, Option.some.injEq, forall_eq']
          by_cases hcondition : condition state action
          · have hlater := hkept state action next hinvariant hnext hcondition
            simp only [hholds state hinvariant, hcondition, true_and, ih hlater]
          · refine iff_of_false ?_ fun h => hcondition h.1
            rintro ⟨-, hall⟩
            exact hbroken state action next hinvariant hnext hcondition
              (hall next (mem_visited_self next actions))

end Runs

end Machine

end Interaction
