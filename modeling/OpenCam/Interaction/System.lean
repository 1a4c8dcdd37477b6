import OpenCam.Interaction.Prog

/-!
Many programs running at once. Each run performs its operations in its own
order; the interleaving is arbitrary, and everything that happened is in one
log. The environment is constrained only by `Allowed`, which may look at the
log so far. Two facts carry the security arguments made over such systems: the
part of the log that belongs to one run is a run of that program, and every
event was allowed by the log before it.
-/

namespace Interaction

variable {Op : Type} {Res : Op → Type} {ι : Type} {α : ι → Type}

abbrev Log (ι : Type) (Op : Type) (Res : Op → Type) := List (ι × Event Op Res)

structure SystemState (Op : Type) (Res : Op → Type) (α : ι → Type) where
  remaining : (run : ι) → Prog Op Res (α run)
  log : Log ι Op Res

section System

variable [DecidableEq ι]

/-- The events of one run, in order. -/
def Log.of (log : Log ι Op Res) (run : ι) : List (Event Op Res) :=
  (log.filter fun entry => entry.1 = run).map Prod.snd

theorem Log.of_append (front back : Log ι Op Res) (run : ι) :
    Log.of (front ++ back) run = Log.of front run ++ Log.of back run := by
  simp [Log.of]

theorem Log.mem_of {log : Log ι Op Res} {run : ι} {event : Event Op Res} :
    event ∈ Log.of log run ↔ (run, event) ∈ log := by
  simp [Log.of]

theorem Log.of_cons (actor run : ι) (event : Event Op Res) (log : Log ι Op Res) :
    Log.of ((actor, event) :: log) run =
      if actor = run then event :: Log.of log run else Log.of log run := by
  by_cases h : actor = run <;> simp [Log.of, h]

theorem Log.of_run (trace : List (Event Op Res)) (actor run : ι) :
    Log.of (trace.map (Prod.mk actor)) run = if actor = run then trace else [] := by
  induction trace with
  | nil => simp [Log.of]
  | cons event trace ih =>
      rw [List.map_cons, Log.of_cons, ih]
      split <;> rfl

/-- Where an event stands in its run, it stands in the log. -/
theorem Log.of_split {log : Log ι Op Res} {run : ι} {front back : List (Event Op Res)}
    {event : Event Op Res} (h : Log.of log run = front ++ event :: back) :
    ∃ before after, log = before ++ (run, event) :: after ∧ Log.of before run = front := by
  induction log generalizing front with
  | nil => simp [Log.of] at h
  | cons entry log ih =>
      obtain ⟨actor, first⟩ := entry
      rw [Log.of_cons] at h
      by_cases hactor : actor = run
      · subst hactor
        rw [if_pos rfl] at h
        cases front with
        | nil =>
            obtain ⟨rfl, -⟩ := List.cons.inj h
            exact ⟨[], log, rfl, rfl⟩
        | cons next front =>
            obtain ⟨rfl, hrest⟩ := List.cons.inj h
            obtain ⟨before, after, rfl, hfront⟩ := ih hrest
            refine ⟨(actor, first) :: before, after, rfl, ?_⟩
            rw [Log.of_cons, if_pos rfl, hfront]
      · rw [if_neg hactor] at h
        obtain ⟨before, after, rfl, hfront⟩ := ih h
        refine ⟨(actor, first) :: before, after, rfl, ?_⟩
        rw [Log.of_cons, if_neg hactor, hfront]

variable (programs : (run : ι) → Prog Op Res (α run))
  (Allowed : Log ι Op Res → ι → Event Op Res → Prop)

/-- Some run performs its next operation and receives an allowed answer. -/
inductive SystemStep : SystemState Op Res α → SystemState Op Res α → Prop where
  | perform {state : SystemState Op Res α} (run : ι) (op : Op)
      (next : Res op → Prog Op Res (α run)) (res : Res op)
      (hnext : state.remaining run = .call op next)
      (hallowed : Allowed state.log run ⟨op, res⟩) :
      SystemStep state
        ⟨Function.update state.remaining run (next res), state.log ++ [(run, ⟨op, res⟩)]⟩

/-- The states reached from all programs at their beginning. -/
def SystemReachable (state : SystemState Op Res α) : Prop :=
  Relation.ReflTransGen (SystemStep Allowed) ⟨programs, []⟩ state

variable {programs Allowed}

/-- Each run's part of the log is a run of its program. -/
theorem SystemReachable.runs {state : SystemState Op Res α}
    (reachable : SystemReachable programs Allowed state) (run : ι) :
    Runs (programs run) (Log.of state.log run) (state.remaining run) := by
  induction reachable with
  | refl => exact .here _
  | tail _ hstep ih =>
      cases hstep with
      | perform actor op next res hnext hallowed =>
          rw [Log.of_append]
          by_cases hactor : actor = run
          · subst hactor
            have hlocal : Log.of [(actor, (⟨op, res⟩ : Event Op Res))] actor = [⟨op, res⟩] := by
              simp [Log.of]
            dsimp only
            rw [hlocal, Function.update_self]
            rw [hnext] at ih
            exact ih.append (.step (.here _))
          · have hlocal : Log.of [(actor, (⟨op, res⟩ : Event Op Res))] run = [] := by
              simp [Log.of, hactor]
            dsimp only
            rw [hlocal, List.append_nil, Function.update_of_ne (Ne.symm hactor)]
            exact ih

/-- Every event of the log was allowed by what came before it. -/
theorem SystemReachable.allowed {state : SystemState Op Res α}
    (reachable : SystemReachable programs Allowed state) {front back : Log ι Op Res} {run : ι}
    {event : Event Op Res} (hlog : state.log = front ++ (run, event) :: back) :
    Allowed front run event := by
  induction reachable generalizing back with
  | refl => simp at hlog
  | tail _ hstep ih =>
      cases hstep with
      | perform actor op next res hnext hallowed =>
          rcases List.eq_nil_or_concat back with rfl | ⟨rest, last, rfl⟩
          · have hsplit := List.append_inj' hlog rfl
            obtain ⟨rfl, hlast⟩ := hsplit
            cases hlast
            exact hallowed
          · rw [List.concat_eq_append, ← List.cons_append, ← List.append_assoc] at hlog
            exact ih (List.append_inj' hlog rfl).1

/-- What every event keeps to all earlier ones holds between any two events of the log. -/
theorem SystemReachable.respects {state : SystemState Op Res α}
    (Respects : Event Op Res → Event Op Res → Prop) [Std.Symm Respects]
    (hrespects : ∀ log run event, Allowed log run event →
      ∀ entry ∈ log, Respects entry.2 event)
    (reachable : SystemReachable programs Allowed state) {first second : ι}
    {event event' : Event Op Res} (hfirst : event ∈ Log.of state.log first)
    (hsecond : event' ∈ Log.of state.log second) (hne : (first, event) ≠ (second, event')) :
    Respects event event' := by
  have hpairs : state.log.Pairwise fun entry entry' => Respects entry.2 entry'.2 := by
    clear hfirst hsecond
    induction reachable with
    | refl => exact List.Pairwise.nil
    | tail _ hstep ih =>
        cases hstep with
        | perform actor op next res hnext hallowed =>
            refine List.pairwise_append.mpr ⟨ih, List.pairwise_singleton _ _, ?_⟩
            intro entry hentry last hlast
            rw [List.mem_singleton.mp hlast]
            exact hrespects _ _ _ hallowed entry hentry
  have hsymm : Std.Symm fun entry entry' : ι × Event Op Res => Respects entry.2 entry'.2 :=
    ⟨fun _ _ h => symm h⟩
  exact hpairs.forall (Log.mem_of.mp hfirst) (Log.mem_of.mp hsecond) hne

/-- Runs whose events are all allowed where they stand in a log are a reachable state. -/
theorem systemReachable_of_runs {remaining : (run : ι) → Prog Op Res (α run)}
    {log : Log ι Op Res} (hruns : ∀ run, Runs (programs run) (Log.of log run) (remaining run))
    (hallowed : ∀ front run event back, log = front ++ (run, event) :: back →
      Allowed front run event) : SystemReachable programs Allowed ⟨remaining, log⟩ := by
  induction log using List.reverseRecOn generalizing remaining with
  | nil =>
      have hstart : remaining = programs := funext fun run => runs_nil_iff.mp (hruns run)
      rw [hstart]
      exact .refl
  | append_singleton log entry ih =>
      obtain ⟨actor, event⟩ := entry
      have hactor := hruns actor
      rw [Log.of_append, Log.of_cons, if_pos rfl] at hactor
      obtain ⟨middle, hmiddle, hlast⟩ := runs_append_iff.mp hactor
      obtain ⟨next, rfl, hnext⟩ := runs_cons_iff.mp hlast
      have hreached : remaining actor = next event.res := runs_nil_iff.mp hnext
      have hbefore := @ih (Function.update remaining actor (.call event.op next))
        (fun run => by
          by_cases hrun : run = actor
          · subst hrun
            rwa [Function.update_self]
          · have hother := hruns run
            rw [Log.of_append, Log.of_cons, if_neg (Ne.symm hrun)] at hother
            rw [Function.update_of_ne hrun]
            simpa [Log.of] using hother)
        (fun front run earlier back h => hallowed front run earlier (back ++ [(actor, event)])
          (by rw [h, List.append_assoc, List.cons_append]))
      have hstep : SystemStep Allowed
          ⟨Function.update remaining actor (.call event.op next), log⟩ _ :=
        .perform actor event.op next event.res (Function.update_self _ _ _)
          (hallowed log actor event [] rfl)
      have hafter : Function.update (Function.update remaining actor (.call event.op next)) actor
          (next event.res) = remaining := by
        rw [Function.update_idem, ← hreached, Function.update_eq_self]
      rw [hafter] at hstep
      exact .tail hbefore hstep

end System

end Interaction
