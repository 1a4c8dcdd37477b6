import OpenCam.Interaction.Prog

/-!
Processes that send to each other over queues. Each one reads from a queue of its own, and
what it sends joins the queue at the end of its route. How an operation is answered depends
on what the queue holds, and an answer stays the same where more has arrived behind it. No
two routes end at one queue, and then the order of the steps does not matter: where one order
comes to an end, every order comes to that end, and after as many steps.
-/

namespace Interaction

section Diamond

variable {σ : Type} {Step : σ → σ → Prop} {start middle last next : σ} {n m : Nat}

/-- A run of so many steps. -/
inductive Steps (Step : σ → σ → Prop) : Nat → σ → σ → Prop where
  | refl (state : σ) : Steps Step 0 state state
  | head {n : Nat} {state next last : σ} (step : Step state next)
      (rest : Steps Step n next last) : Steps Step (n + 1) state last

/-- Two steps from one state have led to the same state or can meet one step later. -/
def Diamond (Step : σ → σ → Prop) : Prop :=
  ∀ state left right, Step state left → Step state right →
    left = right ∨ ∃ joined, Step left joined ∧ Step right joined

/-- No step leads on. -/
def Final (Step : σ → σ → Prop) (state : σ) : Prop := ∀ next, ¬ Step state next

/-- Every run can be continued to `last`, and none is longer than the runs that end there. -/
structure Inevitable (Step : σ → σ → Prop) (start last : σ) : Prop where
  final : Final Step last
  leads : ∃ n, ∀ m middle, Steps Step m start middle → ∃ k, m + k = n ∧ Steps Step k middle last

theorem steps_of_reflTransGen (h : Relation.ReflTransGen Step start last) :
    ∃ n, Steps Step n start last := by
  induction h using Relation.ReflTransGen.head_induction_on with
  | refl => exact ⟨0, .refl last⟩
  | head step _ ih =>
      obtain ⟨n, rest⟩ := ih
      exact ⟨n + 1, .head step rest⟩

/-- A step off a run to a final state: the final state is one step nearer. -/
theorem Diamond.step_leads (diamond : Diamond Step) (final : Final Step last)
    (run : Steps Step n start last) (step : Step start next) :
    ∃ k, n = k + 1 ∧ Steps Step k next last := by
  induction run generalizing next with
  | refl state => exact absurd step (final next)
  | @head n state other last first rest ih =>
      refine ⟨n, rfl, ?_⟩
      rcases diamond state next other step first with rfl | ⟨joined, hnext, hother⟩
      · exact rest
      · obtain ⟨k, rfl, hjoined⟩ := ih final hother
        exact .head hnext hjoined

/-- By induction on the run that is compared with the one to the final state. -/
theorem Diamond.inevitable (diamond : Diamond Step) (final : Final Step last)
    (reached : Relation.ReflTransGen Step start last) : Inevitable Step start last := by
  obtain ⟨n, run⟩ := steps_of_reflTransGen reached
  refine ⟨final, n, fun m middle other => ?_⟩
  clear reached
  induction other generalizing n with
  | refl state => exact ⟨n, Nat.zero_add n, run⟩
  | @head m state next middle step _ ih =>
      obtain ⟨k, rfl, hnext⟩ := diamond.step_leads final run step
      obtain ⟨j, hj, hmiddle⟩ := ih k hnext
      exact ⟨j, by omega, hmiddle⟩

end Diamond

section Answers

variable {Op : Type} {Res : Op → Type} {γ : Type}

/-- From what a queue holds: the answer, what is left of the queue, and what is sent. -/
abbrev Answer (Op : Type) (Res : Op → Type) (γ : Type) : Type :=
  (op : Op) → List γ → Option (Res op × List γ × List γ)

/-- What arrives behind it changes no answer and stays. -/
def Answer.Monotone (answer : Answer Op Res γ) : Prop :=
  ∀ op unread res rest sent, answer op unread = some (res, rest, sent) →
    ∀ more, answer op (unread ++ more) = some (res, rest ++ more, sent)

/-- The answers as an environment of one process, which keeps what was sent. -/
def Answer.queued (answer : Answer Op Res γ) (op : Op) (queues : List γ × List γ) :
    Option (Res op × List γ × List γ) :=
  (answer op queues.1).map fun (res, rest, sent) => (res, rest, queues.2 ++ sent)

end Answers

section Processes

variable {ι : Type} {Op : ι → Type} {Res : (i : ι) → Op i → Type} {α : ι → Type} {γ : Type}

@[ext]
structure Processes (Op : ι → Type) (Res : (i : ι) → Op i → Type) (α : ι → Type) (γ : Type) where
  remaining : (i : ι) → Prog (Op i) (Res i) (α i)
  unread : ι → List γ

variable [DecidableEq ι] (answers : (i : ι) → Answer (Op i) (Res i) γ) (route : ι → ι)

/-- The process goes on with another program and another queue, and has sent something. -/
def Processes.move (state : Processes Op Res α γ) (i : ι) (program : Prog (Op i) (Res i) (α i))
    (rest sent : List γ) : Processes Op Res α γ where
  remaining := Function.update state.remaining i program
  unread j := (if j = i then rest else state.unread j) ++ if j = route i then sent else []

/-- Some process performs its next operation. -/
inductive ProcessStep : Processes Op Res α γ → Processes Op Res α γ → Prop where
  | perform {state : Processes Op Res α γ} (i : ι) (op : Op i)
      (next : Res i op → Prog (Op i) (Res i) (α i)) (res : Res i op) (rest sent : List γ)
      (hnext : state.remaining i = .call op next)
      (hanswer : answers i op (state.unread i) = some (res, rest, sent)) :
      ProcessStep state (state.move route i (next res) rest sent)

variable {answers route} {state : Processes Op Res α γ} {i j : ι}

theorem Processes.move_remaining_ne {program : Prog (Op i) (Res i) (α i)} {rest sent : List γ}
    (h : j ≠ i) : (state.move route i program rest sent).remaining j = state.remaining j :=
  Function.update_of_ne h _ _

theorem Processes.move_remaining_self {program : Prog (Op i) (Res i) (α i)}
    {rest sent : List γ} : (state.move route i program rest sent).remaining i = program :=
  Function.update_self _ _ _

theorem Processes.move_unread_ne {program : Prog (Op i) (Res i) (α i)} {rest sent : List γ}
    (h : j ≠ i) : (state.move route i program rest sent).unread j =
      state.unread j ++ if j = route i then sent else [] := by
  unfold Processes.move
  dsimp only
  rw [if_neg h]

/-- Moves of two processes whose routes end apart may change places. -/
theorem Processes.move_comm {first : Prog (Op i) (Res i) (α i)}
    {second : Prog (Op j) (Res j) (α j)} {rest rest' sent sent' : List γ} (hij : i ≠ j)
    (hroute : route i ≠ route j) :
    (state.move route i first rest sent).move route j second
        (rest' ++ if j = route i then sent else []) sent' =
      (state.move route j second rest' sent').move route i first
        (rest ++ if i = route j then sent' else []) sent := by
  have hremaining : Function.update (Function.update state.remaining i first) j second =
      Function.update (Function.update state.remaining j second) i first :=
    (Function.update_comm hij _ _ _)
  unfold Processes.move
  rw [hremaining]
  congr 1
  funext k
  dsimp only
  by_cases hi : k = i
  · subst hi
    rw [if_neg hij, if_pos rfl, if_pos rfl]
    by_cases hk : k = route k
    · rw [if_pos hk, if_neg (fun h => hroute (hk.symm.trans h)), List.append_nil, List.append_nil]
    · rw [if_neg hk, List.append_nil, List.append_nil]
  · by_cases hj : k = j
    · subst hj
      rw [if_pos rfl, if_neg hi, if_pos rfl]
      by_cases hk : k = route k
      · rw [if_pos hk, if_neg (fun h => hroute (h.symm.trans hk)), List.append_nil,
          List.append_nil]
      · rw [if_neg hk, List.append_nil, List.append_nil]
    · rw [if_neg hi, if_neg hj, if_neg hj, if_neg hi]
      by_cases hk : k = route i
      · rw [if_pos hk, if_neg (fun h => hroute (hk.symm.trans h)), List.append_nil,
          List.append_nil]
      · rw [if_neg hk, List.append_nil, List.append_nil]

theorem Processes.move_unread_self {program : Prog (Op i) (Res i) (α i)} {rest sent : List γ}
    (h : route i ≠ i) : (state.move route i program rest sent).unread i = rest := by
  unfold Processes.move
  dsimp only
  rw [if_pos rfl, if_neg h.symm, List.append_nil]

/-- Standing still is a move that takes and sends nothing. -/
theorem Processes.move_self : state.move route i (state.remaining i) (state.unread i) [] = state := by
  unfold Processes.move
  rw [Function.update_eq_self]
  congr 1
  funext j
  rw [ite_self, List.append_nil]
  split
  · next h => rw [h]
  · rfl

theorem Processes.move_move {first second : Prog (Op i) (Res i) (α i)}
    {rest rest' sent sent' : List γ} (h : route i ≠ i) :
    (state.move route i first rest sent).move route i second rest' sent' =
      state.move route i second rest' (sent ++ sent') := by
  unfold Processes.move
  rw [Function.update_idem]
  congr 1
  funext j
  dsimp only
  by_cases hj : j = i
  · subst hj
    rw [if_pos rfl, if_pos rfl, if_neg h.symm, if_neg h.symm]
  · rw [if_neg hj, if_neg hj, if_neg hj, List.append_assoc]
    by_cases hroute : j = route i
    · rw [if_pos hroute, if_pos hroute, if_pos hroute]
    · rw [if_neg hroute, if_neg hroute, if_neg hroute, List.append_nil]

/-- The order of two steps does not matter. -/
theorem processStep_diamond (hmonotone : ∀ i, (answers i).Monotone)
    (hroute : Function.Injective route) :
    Diamond (ProcessStep (α := α) answers route) := by
  rintro state _ _ ⟨i, op, next, res, rest, sent, hnext, hanswer⟩
    ⟨j, op', next', res', rest', sent', hnext', hanswer'⟩
  by_cases hij : i = j
  · subst hij
    rw [hnext] at hnext'
    cases hnext'
    rw [hanswer] at hanswer'
    cases hanswer'
    exact Or.inl rfl
  · have hsecond : ProcessStep answers route (state.move route i (next res) rest sent)
        ((state.move route i (next res) rest sent).move route j (next' res')
          (rest' ++ if j = route i then sent else []) sent') := by
      refine .perform j op' next' res' _ sent' ?_ ?_
      · rw [Processes.move_remaining_ne (Ne.symm hij), hnext']
      · rw [Processes.move_unread_ne (Ne.symm hij)]
        exact hmonotone j op' _ _ _ _ hanswer' _
    have hfirst : ProcessStep answers route (state.move route j (next' res') rest' sent')
        ((state.move route j (next' res') rest' sent').move route i (next res)
          (rest ++ if i = route j then sent' else []) sent) := by
      refine .perform i op next res _ sent ?_ ?_
      · rw [Processes.move_remaining_ne hij, hnext]
      · rw [Processes.move_unread_ne hij]
        exact hmonotone i op _ _ _ _ hanswer _
    rw [← Processes.move_comm hij fun h => hij (hroute h)] at hfirst
    exact Or.inr ⟨_, hsecond, hfirst⟩

/-- Where no process is answered, none goes on. -/
theorem processStep_final
    (h : ∀ i op next, state.remaining i = .call op next → answers i op (state.unread i) = none) :
    Final (ProcessStep answers route) state := by
  rintro _ ⟨i, op, next, res, rest, sent, hnext, hanswer⟩
  rw [h i op next hnext] at hanswer
  cases hanswer

/-- What a process evaluates to by itself, it comes to among the others. By induction on the
program. -/
theorem Prog.Evaluates.moves {β : Type} {part : Prog (Op i) (Res i) β} {value : β}
    {unread rest out out' : List γ}
    (h : part.Evaluates (answers i).queued (unread, out) value (rest, out'))
    (hroute : route i ≠ i) :
    ∃ sent, out' = out ++ sent ∧ ∀ (state : Processes Op Res α γ) next,
      state.remaining i = part >>= next → state.unread i = unread →
      Relation.ReflTransGen (ProcessStep answers route) state
        (state.move route i (next value) rest sent) := by
  induction part generalizing unread out with
  | ret result =>
      obtain ⟨hvalue, hqueues⟩ := h
      cases hvalue
      obtain ⟨rfl, rfl⟩ := Prod.mk.inj hqueues
      refine ⟨[], (List.append_nil _).symm, fun state next hremaining hunread => ?_⟩
      have hstill : state.move route i (next value) (state.unread i) [] = state := by
        rw [← show state.remaining i = next value from hremaining,
          Processes.move_self]
      rw [← hunread, hstill]
  | throw error => cases h.1
  | unfinished => cases h.1
  | call op later ih =>
      obtain ⟨hrest, hqueues⟩ := h
      cases hanswer : answers i op unread with
      | none =>
          rw [Prog.execute, Answer.queued, hanswer] at hrest
          cases hrest
      | some answer =>
          obtain ⟨res, left, first⟩ := answer
          have hqueued : (answers i).queued op (unread, out) = some (res, left, out ++ first) := by
            rw [Answer.queued, hanswer]
            rfl
          rw [Prog.execute_call _ _ _ hqueued] at hrest hqueues
          obtain ⟨sent, rfl, hmoves⟩ := ih res ⟨hrest, hqueues⟩
          refine ⟨first ++ sent, List.append_assoc _ _ _, fun state next hremaining hunread => ?_⟩
          subst hunread
          have hstep : ProcessStep answers route state
              (state.move route i (later res >>= next) left first) :=
            .perform i op (fun res => later res >>= next) res left first hremaining hanswer
          have hlater := hmoves (state.move route i (later res >>= next) left first) next
            Processes.move_remaining_self (Processes.move_unread_self hroute)
          rw [Processes.move_move hroute] at hlater
          exact .head hstep hlater

/-- The same for a process that has sent nothing into the queues yet. -/
theorem Prog.Evaluates.leads {β : Type} {part : Prog (Op i) (Res i) β} {value : β}
    {unread rest sent : List γ}
    (h : part.Evaluates (answers i).queued (unread, []) value (rest, sent)) (hroute : route i ≠ i)
    {next : β → Prog (Op i) (Res i) (α i)} (hremaining : state.remaining i = part >>= next)
    (hunread : state.unread i = unread) :
    Relation.ReflTransGen (ProcessStep answers route) state
      (state.move route i (next value) rest sent) := by
  obtain ⟨_, rfl, hmoves⟩ := h.moves hroute
  exact hmoves state next hremaining hunread

end Processes

end Interaction
