import OpenCam.Interaction.World

/-!
Operations that are programs themselves. A handler gives for every operation a program of a
lower level; refining a program by it puts these in place of the operations.
-/

namespace Interaction

variable {Op Op' : Type} {Res : Op → Type} {Res' : Op' → Type} {α β : Type}

namespace Prog

def refine (handler : (op : Op) → Prog Op' Res' (Res op)) : Prog Op Res α → Prog Op' Res' α
  | .ret value => .ret value
  | .throw error => .throw error
  | .unfinished => .unfinished
  | .call op next => handler op >>= fun res => refine handler (next res)

variable (handler : (op : Op) → Prog Op' Res' (Res op))

@[simp] theorem refine_ret (value : α) :
    (Prog.ret value : Prog Op Res α).refine handler = .ret value := rfl

@[simp] theorem refine_throw (error : String) :
    (Prog.throw error : Prog Op Res α).refine handler = .throw error := rfl

@[simp] theorem refine_call (op : Op) (next : Res op → Prog Op Res α) :
    (Prog.call op next).refine handler =
      handler op >>= fun res => (next res).refine handler := rfl

@[simp] theorem bind_ret (program : Prog Op Res α) : (program >>= Prog.ret) = program := by
  induction program with
  | ret value => rfl
  | throw error => rfl
  | unfinished => rfl
  | call op next ih =>
      rw [call_bind]
      congr 1
      funext res
      exact ih res

theorem refine_perform (op : Op) : (Prog.perform op).refine handler = handler op :=
  bind_ret (handler op)

theorem refine_bind (program : Prog Op Res α) (next : α → Prog Op Res β) :
    (program >>= next).refine handler =
      program.refine handler >>= fun value => (next value).refine handler := by
  induction program with
  | ret value => rfl
  | throw error => rfl
  | unfinished => rfl
  | call op rest ih =>
      rw [call_bind, refine_call, refine_call, bind_assoc]
      congr 1
      funext res
      exact ih res

section Expansions

/-- The events are those of a lower level, each a run of its operation's program. -/
inductive Expands : List (Event Op Res) → List (Event Op' Res') → Prop where
  | nil : Expands [] []
  | cons {event : Event Op Res} {events : List (Event Op Res)} {front back : List (Event Op' Res')}
      (run : Runs (handler event.op) front (.ret event.res)) (rest : Expands events back) :
      Expands (event :: events) (front ++ back)

variable {handler} {events events' : List (Event Op Res)} {trace : List (Event Op' Res')}

theorem Expands.append {trace' : List (Event Op' Res')} (first : Expands handler events trace)
    (second : Expands handler events' trace') :
    Expands handler (events ++ events') (trace ++ trace') := by
  induction first with
  | nil => exact second
  | cons run _ ih =>
      rw [List.append_assoc]
      exact .cons run ih

/-- What two lists of events expand to is cut where they are. -/
theorem Expands.split (h : Expands handler (events ++ events') trace) :
    ∃ front back, trace = front ++ back ∧ Expands handler events front ∧
      Expands handler events' back := by
  induction events generalizing trace with
  | nil => exact ⟨[], trace, rfl, .nil, h⟩
  | cons event events ih =>
      cases h with
      | cons run rest =>
          obtain ⟨front, back, rfl, hfront, hback⟩ := ih rest
          exact ⟨_, back, (List.append_assoc _ _ _).symm, .cons run hfront, hback⟩

/-- A run below that has returned is the expansion of one above that has. -/
theorem returns_refine {program : Prog Op Res α} {value : α}
    (run : Runs (program.refine handler) trace (.ret value)) :
    ∃ events, Runs program events (.ret value) ∧ Expands handler events trace := by
  induction program generalizing trace with
  | ret result =>
      obtain ⟨rfl, hvalue⟩ := runs_ret_iff.mp run
      cases hvalue
      exact ⟨[], .here _, .nil⟩
  | throw error => cases (runs_throw_iff.mp run).2
  | unfinished => cases (runs_unfinished_iff.mp run).2
  | call op next ih =>
      obtain ⟨res, first, later, rfl, hfirst, hlater⟩ := returns_bind_iff.mp run
      obtain ⟨events, hrun, hexpands⟩ := ih res hlater
      exact ⟨⟨op, res⟩ :: events, .step hrun, .cons hfirst hexpands⟩

end Expansions

section Worlds

variable {σ : Type} {low : World Op' Res' σ} {high : World Op Res σ} {program : Prog Op Res α}
  {state : σ}

/-- A program keeps below what it keeps above, where every operation is carried out as the
world above says. -/
theorem Keeps.refine {calls : σ → Op → Prop} {calls' : σ → Op' → Prop}
    {ends : Except String α → σ → Prop} {cut : σ → Prop}
    (h : program.Keeps high calls ends cut state)
    (hhandler : ∀ state op, calls state op →
      (handler op).Keeps low calls' (Returned (high state op)) cut state) :
    (program.refine handler).Keeps low calls' ends cut state := by
  induction program generalizing state with
  | ret value => exact h
  | throw error => exact h
  | unfinished => exact h
  | call op next ih =>
      exact (hhandler state op h.1).bind (fun _ _ hres => hres.elim)
        fun res after hres => ih res (h.2 res after hres)

/-- A program completes below where it completes above. -/
theorem Completes.refine {post : α → σ → Prop} (h : program.Completes high post state)
    (hhandler : ∀ state op, (∃ res after, high state op res after) →
      (handler op).Completes low (high state op) state) :
    (program.refine handler).Completes low post state :=
  Keeps.refine handler h hhandler

end Worlds

end Prog

end Interaction
