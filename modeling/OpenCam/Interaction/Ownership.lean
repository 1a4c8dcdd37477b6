import OpenCam.Interaction.Monitor

/-!
Who holds what. An operation needs some of the things that a program can hold, others must not
be held when it begins, and its answer says which of them it takes and which it drops. A program
that follows a custody never uses what it does not hold and never loses what it does, so of each
thing it has taken as many as it has given back and still holds.
-/

namespace Interaction

variable {Op : Type} {Res : Op → Type} {α β R κ : Type} [DecidableEq R]

/-- What an operation with an answer does to the things that are held. -/
structure Deal (R : Type) where
  needs : List R := []
  absent : List R := []
  takes : List R := []
  drops : List R := []

namespace Deal

/-- The operation may begin. -/
def Ready (deal : Deal R) (held : R → Bool) : Prop :=
  (∀ thing ∈ deal.needs, held thing = true) ∧ ∀ thing ∈ deal.absent, held thing = false

instance (deal : Deal R) (held : R → Bool) : Decidable (deal.Ready held) :=
  inferInstanceAs (Decidable (_ ∧ _))

def after (deal : Deal R) (held : R → Bool) : R → Bool :=
  fun thing => decide (thing ∈ deal.takes) || (held thing && !decide (thing ∈ deal.drops))

/-- Something that is asked for and may be refused. -/
def granted (thing : R) (answer : Bool) : Deal R where
  absent := [thing]
  takes := if answer then [thing] else []

omit [DecidableEq R] in
theorem mem_granted {thing other : R} {answer : Bool} (h : other ∈ (granted thing answer).takes) :
    other ∈ (granted thing answer).absent := by
  unfold granted at h ⊢
  dsimp only at h
  split at h
  · exact h
  · cases h

end Deal

/-- The deals of the operations, in each phase of a program. -/
structure Custody (Op : Type) (Res : Op → Type) (R κ : Type) where
  deal : κ → (op : Op) → Res op → Deal R
  phase : κ → (op : Op) → Res op → κ
  /-- What is taken is not held, or dropped. -/
  fresh : ∀ stage op res, ∀ thing ∈ (deal stage op res).takes,
    thing ∈ (deal stage op res).absent ∨ thing ∈ (deal stage op res).drops

namespace Custody

variable (custody : Custody Op Res R κ)

def monitor : Monitor Op Res ((R → Bool) × κ)
  | (held, stage), op, res =>
      if (custody.deal stage op res).Ready held then
        some ((custody.deal stage op res).after held, custody.phase stage op res)
      else none

/-- How often a trace takes something. -/
def taken (thing : R) : κ → List (Event Op Res) → Nat
  | _, [] => 0
  | stage, ⟨op, res⟩ :: rest =>
      (decide (thing ∈ (custody.deal stage op res).takes)).toNat +
        taken thing (custody.phase stage op res) rest

/-- How often it drops it while it is held. -/
def givenBack (thing : R) : (R → Bool) × κ → List (Event Op Res) → Nat
  | _, [] => 0
  | (held, stage), ⟨op, res⟩ :: rest =>
      (held thing && decide (thing ∈ (custody.deal stage op res).drops)).toNat +
        givenBack thing ((custody.deal stage op res).after held, custody.phase stage op res) rest

variable {custody}

theorem monitor_eq_some {held : R → Bool} {stage : κ} {op : Op} {res : Res op}
    {after : (R → Bool) × κ} :
    custody.monitor (held, stage) op res = some after ↔
      (custody.deal stage op res).Ready held ∧
        after = ((custody.deal stage op res).after held, custody.phase stage op res) := by
  rw [monitor, Option.ite_none_right_eq_some, Option.some.injEq, eq_comm (b := after)]

/-- One deal keeps the balance: what is held already is not taken again without being dropped. -/
theorem deal_balance {held : R → Bool} {stage : κ} {op : Op} {res : Res op}
    (hready : (custody.deal stage op res).Ready held) (thing : R) :
    (decide (thing ∈ (custody.deal stage op res).takes)).toNat + (held thing).toNat =
      (held thing && decide (thing ∈ (custody.deal stage op res).drops)).toNat +
        ((custody.deal stage op res).after held thing).toNat := by
  have hfresh := custody.fresh stage op res thing
  by_cases htakes : thing ∈ (custody.deal stage op res).takes
  · rcases hfresh htakes with habsent | hdrops
    · simp [Deal.after, htakes, hready.2 thing habsent]
    · simp [Deal.after, htakes, hdrops, Nat.add_comm]
  · by_cases hdrops : thing ∈ (custody.deal stage op res).drops <;>
      simp [Deal.after, htakes, hdrops]

/-- Of each thing as many are taken as are given back and held at the end. By induction on the
trace. -/
theorem balance {trace : List (Event Op Res)} {state after : (R → Bool) × κ}
    (h : custody.monitor.after state trace = some after) (thing : R) :
    custody.taken thing state.2 trace + (state.1 thing).toNat =
      custody.givenBack thing state trace + (after.1 thing).toNat := by
  induction trace generalizing state with
  | nil =>
      obtain rfl := Option.some.inj h
      rfl
  | cons event rest ih =>
      obtain ⟨op, res⟩ := event
      obtain ⟨held, stage⟩ := state
      obtain ⟨middle, hmiddle, hrest⟩ := Option.bind_eq_some_iff.mp h
      obtain ⟨hready, rfl⟩ := monitor_eq_some.mp hmiddle
      have hstep := deal_balance hready thing
      have hlater := ih hrest
      simp only [taken, givenBack] at hlater ⊢
      omega

section Programs

variable {post : α → (R → Bool) × κ → Prop} {program : Prog Op Res α} {held : R → Bool}
  {stage : κ}

/-- An operation that may be performed in a state and leaves it as it is. -/
def Stays (custody : Custody Op Res R κ) (state : (R → Bool) × κ) (op : Op) : Prop :=
  ∀ res, custody.monitor state op res = some state

/-- An operation that only needs something. -/
theorem stays_of_needs {op : Op} {things : List R}
    (hdeal : ∀ res, custody.deal stage op res = { needs := things })
    (hstage : ∀ res, custody.phase stage op res = stage)
    (hheld : ∀ thing ∈ things, held thing = true) : custody.Stays (held, stage) op := by
  intro res
  have hafter : (custody.deal stage op res).after held = held := by
    funext thing
    simp [hdeal, Deal.after]
  refine monitor_eq_some.mpr ⟨?_, by rw [hafter, hstage]⟩
  rw [hdeal]
  exact ⟨hheld, by simp⟩

end Programs

end Custody

end Interaction
