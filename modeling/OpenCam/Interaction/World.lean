import OpenCam.Interaction.Prog

/-!
Programs in a world that may answer in several ways. A world relates its state,
an operation with an answer, and the next state. A program upholds a contract
from a state when, whatever the world answers, each operation is performed in a
state that allows it, what is returned fits the state, and so does the state in
which a bound on a loop cuts the program.
-/

namespace Interaction

variable {Op : Type} {Res : Op → Type} {α β σ : Type}

abbrev World (Op : Type) (Res : Op → Type) (σ : Type) : Type :=
  σ → (op : Op) → Res op → σ → Prop

/-- The world has answered a trace. -/
inductive Lives (world : World Op Res σ) : σ → List (Event Op Res) → σ → Prop where
  | here (state : σ) : Lives world state [] state
  | step {state middle after : σ} {op : Op} {res : Res op} {trace : List (Event Op Res)}
      (answer : world state op res middle) (rest : Lives world middle trace after) :
      Lives world state (⟨op, res⟩ :: trace) after

/-- What a program owes to the world and may expect to have reached. -/
structure Contract (Op σ α : Type) where
  allowed : σ → Op → Prop
  post : α → σ → Prop
  cut : σ → Prop

def Prog.Upholds (world : World Op Res σ) (contract : Contract Op σ α) : Prog Op Res α → σ → Prop
  | .ret value, state => contract.post value state
  | .throw _, _ => True
  | .unfinished, state => contract.cut state
  | .call op next, state =>
      contract.allowed state op ∧
        ∀ res after, world state op res after → (next res).Upholds world contract after

namespace Prog

variable {world : World Op Res σ} {allowed : σ → Op → Prop} {cut : σ → Prop} {post : α → σ → Prop}
  {program stop : Prog Op Res α} {state after : σ} {trace : List (Event Op Res)}

theorem Upholds.mono {weaker : α → σ → Prop} (h : program.Upholds world ⟨allowed, post, cut⟩ state)
    (himplies : ∀ value after, post value after → weaker value after) :
    program.Upholds world ⟨allowed, weaker, cut⟩ state := by
  induction program generalizing state with
  | ret value => exact himplies value state h
  | throw error => trivial
  | unfinished => exact h
  | call op next ih =>
      exact ⟨h.1, fun res after hanswer => ih res (h.2 res after hanswer)⟩

theorem Upholds.bind {next : α → Prog Op Res β} {final : β → σ → Prop}
    (first : program.Upholds world ⟨allowed, post, cut⟩ state)
    (second : ∀ value after, post value after →
      (next value).Upholds world ⟨allowed, final, cut⟩ after) :
    (program >>= next).Upholds world ⟨allowed, final, cut⟩ state := by
  induction program generalizing state with
  | ret value => exact second value state first
  | throw error => trivial
  | unfinished => exact first
  | call op rest ih =>
      exact ⟨first.1, fun res after hanswer => ih res (first.2 res after hanswer)⟩

theorem upholds_perform_bind {op : Op} {next : Res op → Prog Op Res α} (hallowed : allowed state op)
    (hnext : ∀ res after, world state op res after →
      (next res).Upholds world ⟨allowed, post, cut⟩ after) :
    (Prog.perform op >>= next).Upholds world ⟨allowed, post, cut⟩ state :=
  ⟨hallowed, hnext⟩

/-- A program of operations that neither ask for anything nor change the state. -/
theorem upholds_of_performs {Permitted : Op → Prop}
    (hallowed : ∀ op, Permitted op → allowed state op)
    (hstill : ∀ op res after, Permitted op → world state op res after → after = state)
    (hcut : cut state) (hperforms : program.Performs Permitted) :
    program.Upholds world ⟨allowed, fun _ after => after = state, cut⟩ state := by
  induction program with
  | ret value => rfl
  | throw error => trivial
  | unfinished => exact hcut
  | call op next ih =>
      refine ⟨hallowed op hperforms.1, fun res after hanswer => ?_⟩
      rw [hstill op res after hperforms.1 hanswer]
      exact ih res (hperforms.2 res)

/-- What a run has left to do is upheld in the state that the world has reached. -/
theorem Upholds.along {contract : Contract Op σ α} (h : program.Upholds world contract state)
    (run : Runs program trace stop) (path : Lives world state trace after) :
    stop.Upholds world contract after := by
  induction run generalizing state with
  | here =>
      cases path
      exact h
  | step _ ih =>
      cases path with
      | step answer rest => exact ih (h.2 _ _ answer) rest

/-- An event of a run was allowed in the state in which the world answered it. -/
theorem Upholds.event {contract : Contract Op σ α} (h : program.Upholds world contract state)
    (run : Runs program trace stop) (path : Lives world state trace after)
    {event : Event Op Res} (hmem : event ∈ trace) :
    ∃ before next, contract.allowed before event.op ∧ world before event.op event.res next := by
  induction run generalizing state with
  | here => cases hmem
  | step _ ih =>
      cases path with
      | step answer rest =>
          rcases List.mem_cons.mp hmem with rfl | hmem
          · exact ⟨state, _, h.1, answer⟩
          · exact ih (h.2 _ _ answer) rest hmem

/-- What every allowed operation keeps holds wherever a run stands. -/
theorem Upholds.keeps {contract : Contract Op σ α} {Kept : σ → Prop}
    (hstep : ∀ state op res after, Kept state → contract.allowed state op →
      world state op res after → Kept after)
    (h : program.Upholds world contract state) (hstate : Kept state)
    (run : Runs program trace stop) (path : Lives world state trace after) : Kept after := by
  induction run generalizing state with
  | here =>
      cases path
      exact hstate
  | step _ ih =>
      cases path with
      | step answer rest =>
          exact ih (h.2 _ _ answer) (hstep _ _ _ _ hstate h.1 answer) rest

/-- Wherever the program stands, however the world has answered: at an operation `calls`
holds, at its end `ends`, and where a bound on a loop cuts it `cut`. -/
def Keeps (world : World Op Res σ) (calls : σ → Op → Prop) (ends : Except String α → σ → Prop)
    (cut : σ → Prop) : Prog Op Res α → σ → Prop
  | .ret value, state => ends (.ok value) state
  | .throw error, state => ends (.error error) state
  | .unfinished, state => cut state
  | .call op next, state =>
      calls state op ∧ ∀ res after, world state op res after →
        (next res).Keeps world calls ends cut after

section Keeps

variable {calls : σ → Op → Prop} {ends : Except String α → σ → Prop}

theorem Keeps.bind {next : α → Prog Op Res β} {final : Except String β → σ → Prop}
    (first : program.Keeps world calls ends cut state)
    (herror : ∀ error after, ends (.error error) after → final (.error error) after)
    (second : ∀ value after, ends (.ok value) after →
      (next value).Keeps world calls final cut after) :
    (program >>= next).Keeps world calls final cut state := by
  induction program generalizing state with
  | ret value => exact second value state first
  | throw error => exact herror error state first
  | unfinished => exact first
  | call op rest ih =>
      exact ⟨first.1, fun res after hanswer => ih res (first.2 res after hanswer)⟩

theorem Keeps.mono {weaker : Except String α → σ → Prop}
    (h : program.Keeps world calls ends cut state)
    (himplies : ∀ result after, ends result after → weaker result after) :
    program.Keeps world calls weaker cut state := by
  induction program generalizing state with
  | ret value => exact himplies _ state h
  | throw error => exact himplies _ state h
  | unfinished => exact h
  | call op next ih =>
      exact ⟨h.1, fun res after hanswer => ih res (h.2 res after hanswer)⟩

/-- What a run has left to do is kept in the state that the world has reached. -/
theorem Keeps.along (h : program.Keeps world calls ends cut state)
    (run : Runs program trace stop) (path : Lives world state trace after) :
    stop.Keeps world calls ends cut after := by
  induction run generalizing state with
  | here =>
      cases path
      exact h
  | step _ ih =>
      cases path with
      | step answer rest => exact ih (h.2 _ _ answer) rest

end Keeps

/-- The program has returned. -/
def Returned (post : α → σ → Prop) : Except String α → σ → Prop
  | .ok value, state => post value state
  | .error _, _ => False

/-- However the world answers, the program is never without an answer, never cut, and
returns something that fits the state it leaves. -/
abbrev Completes (world : World Op Res σ) (post : α → σ → Prop) (program : Prog Op Res α)
    (state : σ) : Prop :=
  program.Keeps world (fun state op => ∃ res after, world state op res after) (Returned post)
    (fun _ => False) state

section Completes

theorem Completes.mono {weaker : α → σ → Prop} (h : program.Completes world post state)
    (himplies : ∀ value after, post value after → weaker value after) :
    program.Completes world weaker state :=
  Keeps.mono h fun result after hresult =>
    match result, hresult with
    | .ok value, hvalue => himplies value after hvalue

theorem Completes.bind {next : α → Prog Op Res β} {final : β → σ → Prop}
    (first : program.Completes world post state)
    (second : ∀ value after, post value after → (next value).Completes world final after) :
    (program >>= next).Completes world final state :=
  Keeps.bind first (fun _ _ h => h.elim) second

theorem completes_perform_bind {op : Op} {next : Res op → Prog Op Res α}
    (hanswer : ∃ res after, world state op res after)
    (hnext : ∀ res after, world state op res after → (next res).Completes world post after) :
    (Prog.perform op >>= next).Completes world post state :=
  ⟨hanswer, hnext⟩

/-- A program that is never without an answer completes when what it throws is caught. -/
theorem Keeps.attempt {ends : Except String α → σ → Prop}
    (h : program.Keeps world (fun state op => ∃ res after, world state op res after) ends
      (fun _ => False) state) : program.attempt.Completes world ends state := by
  induction program generalizing state with
  | ret value => exact h
  | throw error => exact h
  | unfinished => exact h
  | call op next ih => exact ⟨h.1, fun res after hanswer => ih res (h.2 res after hanswer)⟩

/-- A run of a program that completes has returned, or the world can go on. -/
theorem Completes.along (h : program.Completes world post state)
    (run : Runs program trace stop) (path : Lives world state trace after) :
    (∃ value, stop = .ret value ∧ post value after) ∨
      ∃ op next, stop = .call op next ∧ ∃ res later, world after op res later := by
  have hstop := Keeps.along h run path
  cases stop with
  | ret value => exact Or.inl ⟨value, rfl, hstop⟩
  | throw error => exact hstop.elim
  | unfinished => exact hstop.elim
  | call op next => exact Or.inr ⟨op, next, rfl, hstop.1⟩

/-- What a program that completes returns. -/
theorem Completes.returned {value : α} (h : program.Completes world post state)
    (run : Runs program trace (.ret value)) (path : Lives world state trace after) :
    post value after := Keeps.along h run path

/-- The world can bring a program that completes to its end. -/
theorem Completes.returns (h : program.Completes world post state) :
    ∃ trace value after, Runs program trace (.ret value) ∧ Lives world state trace after ∧
      post value after := by
  induction program generalizing state with
  | ret value => exact ⟨[], value, state, .here _, .here _, h⟩
  | throw error => exact h.elim
  | unfinished => exact h.elim
  | call op next ih =>
      obtain ⟨⟨res, middle, hanswer⟩, hnext⟩ := h
      obtain ⟨trace, value, after, hrun, hpath, hpost⟩ := ih res (hnext res middle hanswer)
      exact ⟨_, value, after, .step hrun, .step hanswer hpath, hpost⟩

end Completes

end Prog

end Interaction
