import Mathlib.Tactic

/-!
Programs that talk to their environment. A program is a tree of operations,
each with one continuation per possible answer, so a theorem about every run
is a theorem about every behaviour of the environment. `Runs` is the
small-step semantics: a run has a trace of answered operations and stands at
some residual program. Loops are written with a bound on their passes; where
the bound cuts a loop the program is `unfinished`, which no run returns from.
-/

namespace Interaction

variable {Op : Type} {Res : Op → Type} {α β γ σ : Type}

inductive Prog (Op : Type) (Res : Op → Type) (α : Type) : Type where
  | ret (value : α)
  | throw (error : String)
  | unfinished
  | call (op : Op) (next : Res op → Prog Op Res α)

/-- An operation and the answer it received. -/
structure Event (Op : Type) (Res : Op → Type) where
  op : Op
  res : Res op

namespace Prog

def bind : Prog Op Res α → (α → Prog Op Res β) → Prog Op Res β
  | .ret value, next => next value
  | .throw error, _ => .throw error
  | .unfinished, _ => .unfinished
  | .call op rest, next => .call op fun res => bind (rest res) next

instance : Monad (Prog Op Res) where
  pure := .ret
  bind := bind

/-- Perform one operation and return its answer. -/
def perform (op : Op) : Prog Op Res (Res op) := .call op .ret

/-- Catch an exception, as `try`/`catch` around the whole program does. -/
def attempt : Prog Op Res α → Prog Op Res (Except String α)
  | .ret value => .ret (.ok value)
  | .throw error => .ret (.error error)
  | .unfinished => .unfinished
  | .call op next => .call op fun res => attempt (next res)

@[simp] theorem pure_eq_ret (value : α) : (pure value : Prog Op Res α) = .ret value := rfl

@[simp] theorem ret_bind (value : α) (next : α → Prog Op Res β) :
    (Prog.ret value >>= next) = next value := rfl

@[simp] theorem throw_bind (error : String) (next : α → Prog Op Res β) :
    ((Prog.throw error : Prog Op Res α) >>= next) = .throw error := rfl

@[simp] theorem unfinished_bind (next : α → Prog Op Res β) :
    ((Prog.unfinished : Prog Op Res α) >>= next) = .unfinished := rfl

@[simp] theorem call_bind (op : Op) (rest : Res op → Prog Op Res α)
    (next : α → Prog Op Res β) :
    (Prog.call op rest >>= next) = .call op fun res => rest res >>= next := rfl

@[simp] theorem perform_bind (op : Op) (next : Res op → Prog Op Res α) :
    (perform op >>= next) = .call op next := rfl

@[simp] theorem bind_assoc (program : Prog Op Res α) (first : α → Prog Op Res β)
    (second : β → Prog Op Res γ) :
    (program >>= first >>= second) = program >>= fun value => first value >>= second := by
  induction program with
  | ret value => rfl
  | throw error => rfl
  | unfinished => rfl
  | call op next ih =>
      simp only [call_bind]
      congr 1
      funext res
      exact ih res

end Prog

open Prog

/-- `Runs p trace q`: having made the answered calls `trace`, `p` stands at `q`. -/
inductive Runs : Prog Op Res α → List (Event Op Res) → Prog Op Res α → Prop where
  | here (program : Prog Op Res α) : Runs program [] program
  | step {op : Op} {next : Res op → Prog Op Res α} {res : Res op}
      {trace : List (Event Op Res)} {stop : Prog Op Res α}
      (rest : Runs (next res) trace stop) : Runs (.call op next) (⟨op, res⟩ :: trace) stop

section Inversion

variable {op : Op} {next : Res op → Prog Op Res α} {trace : List (Event Op Res)}
  {program stop : Prog Op Res α}

@[simp] theorem runs_ret_iff {value : α} :
    Runs (.ret value) trace stop ↔ trace = [] ∧ stop = .ret value := by
  constructor
  · intro h
    cases h
    exact ⟨rfl, rfl⟩
  · rintro ⟨rfl, rfl⟩
    exact .here _

@[simp] theorem runs_throw_iff {error : String} :
    Runs (.throw error) trace stop ↔ trace = [] ∧ stop = .throw error := by
  constructor
  · intro h
    cases h
    exact ⟨rfl, rfl⟩
  · rintro ⟨rfl, rfl⟩
    exact .here _

@[simp] theorem runs_unfinished_iff :
    Runs .unfinished trace stop ↔ trace = [] ∧ stop = .unfinished := by
  constructor
  · intro h
    cases h
    exact ⟨rfl, rfl⟩
  · rintro ⟨rfl, rfl⟩
    exact .here _

/-- A run of a call has either not begun or starts with the call's answer. -/
theorem runs_call_iff :
    Runs (.call op next) trace stop ↔
      (trace = [] ∧ stop = .call op next) ∨
      ∃ res rest, trace = ⟨op, res⟩ :: rest ∧ Runs (next res) rest stop := by
  constructor
  · intro h
    cases h with
    | here => exact Or.inl ⟨rfl, rfl⟩
    | step rest => exact Or.inr ⟨_, _, rfl, rest⟩
  · rintro (⟨rfl, rfl⟩ | ⟨res, rest, rfl, h⟩)
    · exact .here _
    · exact .step h

theorem runs_cons_iff {event : Event Op Res} :
    Runs program (event :: trace) stop ↔
      ∃ next, program = .call event.op next ∧ Runs (next event.res) trace stop := by
  constructor
  · intro h
    cases h with
    | step rest => exact ⟨_, rfl, rest⟩
  · rintro ⟨next, rfl, h⟩
    exact .step h

theorem runs_nil_iff : Runs program [] stop ↔ stop = program := by
  constructor
  · intro h
    cases h
    rfl
  · rintro rfl
    exact .here _

/-- A call that has returned has been answered. -/
theorem returns_call_iff {value : α} :
    Runs (.call op next) trace (.ret value) ↔
      ∃ res rest, trace = ⟨op, res⟩ :: rest ∧ Runs (next res) rest (.ret value) := by
  rw [runs_call_iff]
  simp

end Inversion

section Composition

variable {program middle stop : Prog Op Res α} {front back trace : List (Event Op Res)}

theorem Runs.append (first : Runs program front middle) (second : Runs middle back stop) :
    Runs program (front ++ back) stop := by
  induction first with
  | here => exact second
  | step _ ih => exact .step (ih second)

theorem runs_append_iff :
    Runs program (front ++ back) stop ↔
      ∃ middle, Runs program front middle ∧ Runs middle back stop := by
  constructor
  · intro h
    induction front generalizing program with
    | nil => exact ⟨program, .here _, h⟩
    | cons event front ih =>
        obtain ⟨next, rfl, hrest⟩ := runs_cons_iff.mp h
        obtain ⟨middle, hfront, hback⟩ := ih hrest
        exact ⟨middle, .step hfront, hback⟩
  · rintro ⟨middle, hfront, hback⟩
    exact hfront.append hback

/-- The trace determines where a run stands. -/
theorem Runs.unique {stop' : Prog Op Res α} (first : Runs program trace stop)
    (second : Runs program trace stop') : stop = stop' := by
  induction first with
  | here => exact (runs_nil_iff.mp second).symm
  | step _ ih =>
      obtain ⟨next, hnext, hrest⟩ := runs_cons_iff.mp second
      cases hnext
      exact ih hrest

/-- An event of a run was made at a call the run had reached. -/
theorem Runs.at_event {event : Event Op Res} (run : Runs program trace stop)
    (hmem : event ∈ trace) :
    ∃ front next back, trace = front ++ event :: back ∧
      Runs program front (.call event.op next) ∧ Runs (next event.res) back stop := by
  obtain ⟨front, back, rfl⟩ := List.append_of_mem hmem
  obtain ⟨middle, hfront, hback⟩ := runs_append_iff.mp run
  obtain ⟨next, rfl, hrest⟩ := runs_cons_iff.mp hback
  exact ⟨front, next, back, rfl, hfront, hrest⟩

theorem Runs.bind (run : Runs program trace stop) (next : α → Prog Op Res β) :
    Runs (program >>= next) trace (stop >>= next) := by
  induction run with
  | here => exact .here _
  | step _ ih => exact .step ih

/-- A run of a sequence is inside its first part, or has left it with a value
and continues in the second. -/
theorem runs_bind_iff {next : α → Prog Op Res β} {stop : Prog Op Res β} :
    Runs (program >>= next) trace stop ↔
      (∃ middle, Runs program trace middle ∧ (∀ value, middle ≠ .ret value) ∧
        stop = middle >>= next) ∨
      ∃ value front back, trace = front ++ back ∧ Runs program front (.ret value) ∧
        Runs (next value) back stop := by
  constructor
  · intro h
    induction program generalizing trace with
    | ret value => exact Or.inr ⟨value, [], trace, rfl, .here _, h⟩
    | throw error =>
        obtain ⟨rfl, rfl⟩ := runs_throw_iff.mp h
        exact Or.inl ⟨.throw error, .here _, by simp, rfl⟩
    | unfinished =>
        obtain ⟨rfl, rfl⟩ := runs_unfinished_iff.mp h
        exact Or.inl ⟨.unfinished, .here _, by simp, rfl⟩
    | call op rest ih =>
        rw [call_bind, runs_call_iff] at h
        rcases h with ⟨rfl, rfl⟩ | ⟨res, tail, rfl, h⟩
        · exact Or.inl ⟨.call op rest, .here _, by simp, rfl⟩
        · rcases ih res h with ⟨middle, hrun, hmiddle, rfl⟩ | ⟨value, front, back, rfl, hrun, hnext⟩
          · exact Or.inl ⟨middle, .step hrun, hmiddle, rfl⟩
          · exact Or.inr ⟨value, ⟨op, res⟩ :: front, back, rfl, .step hrun, hnext⟩
  · rintro (⟨middle, hrun, _, rfl⟩ | ⟨value, front, back, rfl, hrun, hnext⟩)
    · exact hrun.bind next
    · exact (hrun.bind next).append hnext

/-- A sequence returns by way of both its parts. -/
theorem returns_bind_iff {next : α → Prog Op Res β} {result : β} :
    Runs (program >>= next) trace (.ret result) ↔
      ∃ value front back, trace = front ++ back ∧ Runs program front (.ret value) ∧
        Runs (next value) back (.ret result) := by
  rw [runs_bind_iff]
  constructor
  · rintro (⟨middle, _, hmiddle, hstop⟩ | h)
    · cases middle with
      | ret value => exact absurd rfl (hmiddle value)
      | throw error => cases hstop
      | unfinished => cases hstop
      | call op rest => cases hstop
    · exact h
  · exact Or.inr

theorem returns_perform_iff {op : Op} {trace : List (Event Op Res)} {value : Res op} :
    Runs (perform op) trace (.ret value) ↔ trace = [⟨op, value⟩] := by
  rw [perform, returns_call_iff]
  constructor
  · rintro ⟨res, rest, rfl, h⟩
    obtain ⟨rfl, h⟩ := runs_ret_iff.mp h
    cases h
    rfl
  · rintro rfl
    exact ⟨value, [], rfl, .here _⟩

theorem returns_perform_bind_iff {op : Op} {trace : List (Event Op Res)}
    {next : Res op → Prog Op Res α} {value : α} :
    Runs (perform op >>= next) trace (.ret value) ↔
      ∃ res rest, trace = ⟨op, res⟩ :: rest ∧ Runs (next res) rest (.ret value) := by
  rw [perform_bind, returns_call_iff]

theorem runs_perform_bind_iff {op : Op} {trace : List (Event Op Res)}
    {next : Res op → Prog Op Res α} {stop : Prog Op Res α} :
    Runs (perform op >>= next) trace stop ↔
      (trace = [] ∧ stop = .call op next) ∨
      ∃ res rest, trace = ⟨op, res⟩ :: rest ∧ Runs (next res) rest stop := by
  rw [perform_bind, runs_call_iff]

/-- A run that stands at another operation than the first has been answered. -/
theorem stands_perform_bind_iff {op other : Op} {trace : List (Event Op Res)}
    {next : Res op → Prog Op Res α} {rest : Res other → Prog Op Res α} (hne : op ≠ other) :
    Runs (perform op >>= next) trace (.call other rest) ↔
      ∃ res tail, trace = ⟨op, res⟩ :: tail ∧ Runs (next res) tail (.call other rest) := by
  rw [perform_bind, runs_call_iff]
  constructor
  · rintro (⟨_, hcall⟩ | h)
    · cases hcall
      exact absurd rfl hne
    · exact h
  · exact Or.inr

theorem runs_attempt_iff {stop : Prog Op Res (Except String α)} :
    Runs program.attempt trace stop ↔
      ∃ middle, Runs program trace middle ∧ stop = middle.attempt := by
  constructor
  · intro h
    induction program generalizing trace with
    | ret value =>
        obtain ⟨rfl, rfl⟩ := runs_ret_iff.mp h
        exact ⟨_, .here _, rfl⟩
    | throw error =>
        obtain ⟨rfl, rfl⟩ := runs_ret_iff.mp h
        exact ⟨_, .here _, rfl⟩
    | unfinished =>
        obtain ⟨rfl, rfl⟩ := runs_unfinished_iff.mp h
        exact ⟨_, .here _, rfl⟩
    | call op next ih =>
        rcases runs_call_iff.mp h with ⟨rfl, rfl⟩ | ⟨res, rest, rfl, hrest⟩
        · exact ⟨_, .here _, rfl⟩
        · obtain ⟨middle, hmiddle, rfl⟩ := ih res hrest
          exact ⟨middle, .step hmiddle, rfl⟩
  · rintro ⟨middle, hrun, rfl⟩
    induction hrun with
    | here => exact .here _
    | step _ ih => exact .step ih

theorem returns_attempt_iff {result : Except String α} :
    Runs program.attempt trace (.ret result) ↔
      (∃ value, result = .ok value ∧ Runs program trace (.ret value)) ∨
      (∃ error, result = .error error ∧ Runs program trace (.throw error)) := by
  rw [runs_attempt_iff]
  constructor
  · rintro ⟨middle, hrun, hstop⟩
    cases middle with
    | ret value =>
        cases hstop
        exact Or.inl ⟨value, rfl, hrun⟩
    | throw error =>
        cases hstop
        exact Or.inr ⟨error, rfl, hrun⟩
    | unfinished => cases hstop
    | call op next => cases hstop
  · rintro (⟨value, rfl, hrun⟩ | ⟨error, rfl, hrun⟩)
    · exact ⟨_, hrun, rfl⟩
    · exact ⟨_, hrun, rfl⟩

end Composition

section Operations

/-- Every operation the program may perform satisfies `Permitted`. -/
def Prog.Performs (Permitted : Op → Prop) : Prog Op Res α → Prop
  | .ret _ | .throw _ | .unfinished => True
  | .call op next => Permitted op ∧ ∀ res, (next res).Performs Permitted

variable {Permitted : Op → Prop} {program stop : Prog Op Res α} {trace : List (Event Op Res)}

theorem Prog.Performs.mono {Other : Op → Prop} (h : program.Performs Permitted)
    (himplies : ∀ op, Permitted op → Other op) : program.Performs Other := by
  induction program with
  | ret value => trivial
  | throw error => trivial
  | unfinished => trivial
  | call op next ih => exact ⟨himplies op h.1, fun res => ih res (h.2 res)⟩

theorem Prog.Performs.bind {next : α → Prog Op Res β} (first : program.Performs Permitted)
    (second : ∀ value, (next value).Performs Permitted) :
    (program >>= next).Performs Permitted := by
  induction program with
  | ret value => exact second value
  | throw error => trivial
  | unfinished => trivial
  | call op rest ih => exact ⟨first.1, fun res => ih res (first.2 res)⟩

theorem Prog.performs_perform_bind {op : Op} {next : Res op → Prog Op Res α} (hop : Permitted op)
    (hnext : ∀ res, (next res).Performs Permitted) :
    (Prog.perform op >>= next).Performs Permitted :=
  ⟨hop, hnext⟩

theorem Runs.performs (run : Runs program trace stop) (hprogram : program.Performs Permitted) :
    (∀ event ∈ trace, Permitted event.op) ∧ stop.Performs Permitted := by
  induction run with
  | here => exact ⟨by simp, hprogram⟩
  | step _ ih =>
      obtain ⟨hop, hnext⟩ := hprogram
      obtain ⟨htrace, hstop⟩ := ih (hnext _)
      exact ⟨List.forall_mem_cons.mpr ⟨hop, htrace⟩, hstop⟩

/-- A sequence stands at an operation that its first part never performs only behind
that part. -/
theorem Runs.stands_bind {op : Op} {rest : Res op → Prog Op Res β} {next : α → Prog Op Res β}
    (run : Runs (program >>= next) trace (.call op rest)) (hperforms : program.Performs Permitted)
    (hop : ¬ Permitted op) :
    ∃ value front back, trace = front ++ back ∧ Runs program front (.ret value) ∧
      Runs (next value) back (.call op rest) := by
  rcases runs_bind_iff.mp run with ⟨middle, hmiddle, hvalue, hstop⟩ | h
  · have hleft := (hmiddle.performs hperforms).2
    cases middle with
    | ret value => exact absurd rfl (hvalue value)
    | throw error => cases hstop
    | unfinished => cases hstop
    | call first later =>
        cases hstop
        exact absurd hleft.1 hop
  · exact h

/-- A sequence whose second part never performs an operation stands at it inside the first. -/
theorem Runs.stands_left {op : Op} {rest : Res op → Prog Op Res β} {next : α → Prog Op Res β}
    (run : Runs (program >>= next) trace (.call op rest))
    (hperforms : ∀ value, (next value).Performs Permitted) (hop : ¬ Permitted op) :
    ∃ first : Res op → Prog Op Res α, Runs program trace (.call op first) ∧
      rest = fun res => first res >>= next := by
  rcases runs_bind_iff.mp run with ⟨middle, hmiddle, hvalue, hstop⟩ |
    ⟨value, front, back, rfl, -, hback⟩
  · cases middle with
    | ret value => exact absurd rfl (hvalue value)
    | throw error => cases hstop
    | unfinished => cases hstop
    | call first later =>
        cases hstop
        exact ⟨later, hmiddle, rfl⟩
  · exact absurd (hback.performs (hperforms value)).2.1 hop

/-- The program has no exception in it. -/
def Prog.NoThrow : Prog Op Res α → Prop
  | .throw _ => False
  | .ret _ | .unfinished => True
  | .call _ next => ∀ res, (next res).NoThrow

theorem Prog.NoThrow.bind {next : α → Prog Op Res β} (first : program.NoThrow)
    (second : ∀ value, (next value).NoThrow) : (program >>= next).NoThrow := by
  induction program with
  | ret value => exact second value
  | throw error => exact first.elim
  | unfinished => trivial
  | call op rest ih => exact fun res => ih res (first res)

theorem Runs.noThrow (run : Runs program trace stop) (hprogram : program.NoThrow) :
    stop.NoThrow := by
  induction run with
  | here => exact hprogram
  | step _ ih => exact ih (hprogram _)

end Operations

section Execution

/-- What an execution leaves: the residual program, its trace and the
environment's state. -/
structure Execution (Op : Type) (Res : Op → Type) (α σ : Type) where
  rest : Prog Op Res α
  trace : List (Event Op Res)
  state : σ

/-- Run a program against an environment with a state. The run stops where the
environment gives no answer. -/
def Prog.execute (answer : (op : Op) → σ → Option (Res op × σ)) :
    Prog Op Res α → σ → Execution Op Res α σ
  | .call op next, state =>
      match answer op state with
      | none => ⟨.call op next, [], state⟩
      | some (res, state') =>
          let execution := (next res).execute answer state'
          ⟨execution.rest, ⟨op, res⟩ :: execution.trace, execution.state⟩
  | program, state => ⟨program, [], state⟩

variable (answer : (op : Op) → σ → Option (Res op × σ))

/-- An execution is one of the program's runs. -/
theorem Prog.execute_runs (program : Prog Op Res α) (state : σ) :
    Runs program (program.execute answer state).trace (program.execute answer state).rest := by
  induction program generalizing state with
  | ret value => exact .here _
  | throw error => exact .here _
  | unfinished => exact .here _
  | call op next ih =>
      unfold Prog.execute
      cases answer op state with
      | none => exact .here _
      | some pair => exact .step (ih pair.1 pair.2)

@[simp] theorem Prog.execute_ret (value : α) (state : σ) :
    (Prog.ret value : Prog Op Res α).execute answer state = ⟨.ret value, [], state⟩ := rfl

theorem Prog.execute_call {op : Op} {next : Res op → Prog Op Res α} {state : σ} (res : Res op)
    (state' : σ) (h : answer op state = some (res, state')) :
    (Prog.call op next).execute answer state =
      ⟨((next res).execute answer state').rest,
        ⟨op, res⟩ :: ((next res).execute answer state').trace,
        ((next res).execute answer state').state⟩ := by
  rw [Prog.execute, h]

theorem Prog.execute_bind {program : Prog Op Res α} {next : α → Prog Op Res β} {state : σ}
    {value : α} (h : (program.execute answer state).rest = .ret value) :
    (program >>= next).execute answer state =
      ⟨((next value).execute answer (program.execute answer state).state).rest,
        (program.execute answer state).trace ++
          ((next value).execute answer (program.execute answer state).state).trace,
        ((next value).execute answer (program.execute answer state).state).state⟩ := by
  induction program generalizing state with
  | ret result =>
      cases h
      rfl
  | throw error => cases h
  | unfinished => cases h
  | call op rest ih =>
      cases hanswer : answer op state with
      | none =>
          unfold Prog.execute at h
          simp [hanswer] at h
      | some pair =>
          rw [Prog.execute_call answer _ _ hanswer] at h ⊢
          rw [call_bind, Prog.execute_call answer _ _ hanswer, ih pair.1 h]
          rfl

theorem Prog.execute_bind_throw {program : Prog Op Res α} {next : α → Prog Op Res β} {state : σ}
    {error : String} (h : (program.execute answer state).rest = .throw error) :
    (program >>= next).execute answer state =
      ⟨.throw error, (program.execute answer state).trace,
        (program.execute answer state).state⟩ := by
  induction program generalizing state with
  | ret value => cases h
  | throw error =>
      cases h
      rfl
  | unfinished => cases h
  | call op rest ih =>
      cases hanswer : answer op state with
      | none =>
          unfold Prog.execute at h
          simp [hanswer] at h
      | some pair =>
          rw [Prog.execute_call answer _ _ hanswer] at h ⊢
          rw [call_bind, Prog.execute_call answer _ _ hanswer, ih pair.1 h]

theorem Prog.execute_attempt (program : Prog Op Res α) (state : σ) :
    program.attempt.execute answer state =
      ⟨(program.execute answer state).rest.attempt, (program.execute answer state).trace,
        (program.execute answer state).state⟩ := by
  induction program generalizing state with
  | ret value => rfl
  | throw error => rfl
  | unfinished => rfl
  | call op rest ih =>
      rw [attempt]
      cases hanswer : answer op state with
      | none =>
          unfold Prog.execute
          simp [hanswer, attempt]
      | some pair =>
          rw [Prog.execute_call answer _ _ hanswer, Prog.execute_call answer _ _ hanswer, ih pair.1]

/-- Against this environment the program returns `value` and leaves `state'`. -/
def Prog.Evaluates (program : Prog Op Res α) (state : σ) (value : α) (state' : σ) : Prop :=
  (program.execute answer state).rest = .ret value ∧
    (program.execute answer state).state = state'

variable {answer} {state middle state' : σ}

theorem Prog.evaluates_ret (value : α) (state : σ) :
    (Prog.ret value : Prog Op Res α).Evaluates answer state value state := ⟨rfl, rfl⟩

theorem Prog.evaluates_call {op : Op} {next : Res op → Prog Op Res α} {res : Res op} {value : α}
    (hanswer : answer op state = some (res, middle))
    (hnext : (next res).Evaluates answer middle value state') :
    (Prog.call op next).Evaluates answer state value state' := by
  unfold Prog.Evaluates
  rw [Prog.execute_call answer _ _ hanswer]
  exact hnext

theorem Prog.evaluates_perform {op : Op} {res : Res op}
    (hanswer : answer op state = some (res, state')) :
    (Prog.perform op).Evaluates answer state res state' :=
  evaluates_call hanswer (evaluates_ret res state')

theorem Prog.Evaluates.bind {program : Prog Op Res α} {next : α → Prog Op Res β} {value : α}
    {result : β} (first : program.Evaluates answer state value middle)
    (second : (next value).Evaluates answer middle result state') :
    (program >>= next).Evaluates answer state result state' := by
  obtain ⟨hrest, rfl⟩ := first
  unfold Prog.Evaluates
  rw [Prog.execute_bind answer hrest]
  exact second

theorem Prog.evaluates_perform_bind {op : Op} {next : Res op → Prog Op Res α} {res : Res op}
    {value : α} (hanswer : answer op state = some (res, middle))
    (hnext : (next res).Evaluates answer middle value state') :
    (Prog.perform op >>= next).Evaluates answer state value state' :=
  evaluates_call hanswer hnext

theorem Prog.Evaluates.runs {program : Prog Op Res α} {value : α}
    (h : program.Evaluates answer state value state') :
    Runs program (program.execute answer state).trace (.ret value) := by
  have run := Prog.execute_runs answer program state
  rw [h.1] at run
  exact run

/-- A run to whose operations the environment gives the same answers is its own. -/
theorem Runs.evaluates {program : Prog Op Res α} {trace : List (Event Op Res)} {value : α}
    (run : Runs program trace (.ret value))
    (hanswer : ∀ event ∈ trace, answer event.op state = some (event.res, state)) :
    program.Evaluates answer state value state := by
  induction trace generalizing program with
  | nil =>
      rw [← runs_nil_iff.mp run]
      exact Prog.evaluates_ret value state
  | cons event trace ih =>
      obtain ⟨next, rfl, hrest⟩ := runs_cons_iff.mp run
      obtain ⟨hfirst, hlater⟩ := List.forall_mem_cons.mp hanswer
      exact Prog.evaluates_call hfirst (ih hrest hlater)

/-- An environment that gives every answer of another one, seen through `view`. By induction on
the program. -/
theorem Prog.Evaluates.simulate {τ : Type} {answer' : (op : Op) → τ → Option (Res op × τ)}
    {program : Prog Op Res α} {value : α} (h : program.Evaluates answer state value state')
    (view : σ → τ) (hview : ∀ op state res after, answer op state = some (res, after) →
      answer' op (view state) = some (res, view after)) :
    program.Evaluates answer' (view state) value (view state') := by
  induction program generalizing state with
  | ret result =>
      obtain ⟨hvalue, rfl⟩ := h
      cases hvalue
      exact Prog.evaluates_ret _ _
  | throw error => cases h.1
  | unfinished => cases h.1
  | call op next ih =>
      obtain ⟨hrest, hstate⟩ := h
      cases hanswer : answer op state with
      | none =>
          rw [Prog.execute, hanswer] at hrest
          cases hrest
      | some pair =>
          rw [Prog.execute_call _ _ _ hanswer] at hrest hstate
          exact Prog.evaluates_call (hview op state _ _ hanswer) (ih pair.1 ⟨hrest, hstate⟩)

/-- The environment decides what a program evaluates to. -/
theorem Prog.Evaluates.unique {program : Prog Op Res α} {value value' : α} {state'' : σ}
    (first : program.Evaluates answer state value state')
    (second : program.Evaluates answer state value' state'') :
    value = value' ∧ state' = state'' := by
  have hrest := first.1.symm.trans second.1
  cases hrest
  exact ⟨rfl, first.2.symm.trans second.2⟩

end Execution

end Interaction
