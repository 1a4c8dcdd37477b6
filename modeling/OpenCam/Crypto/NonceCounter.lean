import Mathlib.Tactic

/-!
A counter used as a nonce. Each request that is admitted seals its message
under the counter's value; the counter advances only when everything after the
sealing has succeeded too, and stops at a limit. The question is when such a
log never shows one counter value with two messages. The answer is the
theorem at the end: exactly when a message that was sealed in vain is never
followed, before the next advance, by a different one.
-/

namespace Crypto

variable {μ : Type}

/-- A request to seal a message and how it fares: whether the caller's checks
admit it, and whether everything after the sealing succeeds. -/
structure SealRequest (μ : Type) where
  message : μ
  admitted : Bool
  completes : Bool

namespace SealRequest

def advances (request : SealRequest μ) : Bool := request.admitted && request.completes

end SealRequest

section Counter

variable (limit : Nat)

/-- The counter after one request. -/
def counterStep (value : Nat) (request : SealRequest μ) : Nat :=
  if value < limit ∧ request.advances = true then value + 1 else value

/-- What one request seals. -/
def sealedAt (value : Nat) (request : SealRequest μ) : List (Nat × μ) :=
  if value < limit ∧ request.admitted = true then [(value, request.message)] else []

def counterAfter (value : Nat) (requests : List (SealRequest μ)) : Nat :=
  requests.foldl (counterStep limit) value

/-- Every sealing of a sequence of requests, with the counter value it used. -/
def sealLog : Nat → List (SealRequest μ) → List (Nat × μ)
  | _, [] => []
  | value, request :: rest =>
      sealedAt limit value request ++ sealLog (counterStep limit value request) rest

variable {limit} {value : Nat} {request : SealRequest μ} {requests : List (SealRequest μ)}

theorem sealedAt_of_pass (hvalue : value < limit) (hadmitted : request.admitted = true) :
    sealedAt limit value request = [(value, request.message)] :=
  if_pos ⟨hvalue, hadmitted⟩

theorem sealedAt_of_stop (h : ¬ (value < limit ∧ request.admitted = true)) :
    sealedAt limit value request = [] :=
  if_neg h

theorem counterStep_of_pass (hvalue : value < limit) (hadvances : request.advances = true) :
    counterStep limit value request = value + 1 :=
  if_pos ⟨hvalue, hadvances⟩

theorem counterStep_of_fail (hadvances : request.advances = false) :
    counterStep limit value request = value :=
  if_neg fun h => by simp [hadvances] at h

theorem counterStep_of_stop (h : ¬ (value < limit ∧ request.admitted = true)) :
    counterStep limit value request = value :=
  if_neg fun hpass => h ⟨hpass.1, (Bool.and_eq_true _ _ ▸ hpass.2).1⟩

theorem counterStep_le (request : SealRequest μ) (h : value ≤ limit) :
    counterStep limit value request ≤ limit := by
  unfold counterStep
  split <;> omega

theorem le_counterStep : value ≤ counterStep limit value request := by
  unfold counterStep
  split <;> omega

theorem counterAfter_append (front back : List (SealRequest μ)) :
    counterAfter limit value (front ++ back) =
      counterAfter limit (counterAfter limit value front) back := by
  rw [counterAfter, List.foldl_append]
  rfl

/-- The counter never goes back. -/
theorem le_counterAfter : value ≤ counterAfter limit value requests := by
  induction requests generalizing value with
  | nil => exact le_refl _
  | cons request rest ih => exact le_counterStep.trans ih

/-- The counter counts the requests that went through, up to the limit. -/
theorem counterAfter_eq (h : value ≤ limit) :
    counterAfter limit value requests =
      min limit (value + requests.countP SealRequest.advances) := by
  induction requests generalizing value with
  | nil => simp [counterAfter, h]
  | cons request rest ih =>
      have hrest := ih (counterStep_le request h)
      have hfirst : counterAfter limit value (request :: rest) =
          counterAfter limit (counterStep limit value request) rest := rfl
      rw [hfirst, hrest]
      cases hadvances : request.advances with
      | false =>
          rw [List.countP_cons_of_neg (by simp [hadvances])]
          rw [counterStep_of_fail hadvances]
      | true =>
          rw [List.countP_cons_of_pos hadvances]
          by_cases hvalue : value < limit
          · rw [counterStep_of_pass hvalue hadvances]
            omega
          · rw [counterStep, if_neg (fun h => hvalue h.1)]
            omega

/-- The counter stands still exactly when nothing goes through. -/
theorem counterAfter_eq_self_iff (h : value < limit) :
    counterAfter limit value requests = value ↔
      ∀ request ∈ requests, request.advances = false := by
  rw [counterAfter_eq h.le]
  have hcount : requests.countP SealRequest.advances = 0 ↔
      ∀ request ∈ requests, request.advances = false := by
    rw [List.countP_eq_zero]
    simp
  rw [← hcount]
  omega

/-- A sealing of the log is made by an admitted request, at the counter's
value after the requests before it. -/
theorem mem_sealLog {entry : Nat × μ} :
    entry ∈ sealLog limit value requests ↔
      ∃ before request after, requests = before ++ request :: after ∧
        counterAfter limit value before < limit ∧ request.admitted = true ∧
        entry = (counterAfter limit value before, request.message) := by
  induction requests generalizing value with
  | nil => simp [sealLog]
  | cons head rest ih =>
      rw [sealLog, List.mem_append, ih]
      constructor
      · rintro (hhead | ⟨before, request, after, rfl, hlimit, hadmitted, rfl⟩)
        · unfold sealedAt at hhead
          split at hhead
          · next h => exact ⟨[], head, rest, rfl, h.1, h.2, List.mem_singleton.mp hhead⟩
          · simp at hhead
        · exact ⟨head :: before, request, after, rfl, hlimit, hadmitted, rfl⟩
      · rintro ⟨before, request, after, hrequests, hlimit, hadmitted, rfl⟩
        cases before with
        | nil =>
            cases hrequests
            left
            have hsealed : sealedAt limit value head = [(value, head.message)] :=
              sealedAt_of_pass hlimit hadmitted
            rw [hsealed]
            exact List.mem_singleton.mpr rfl
        | cons first before =>
            cases hrequests
            exact Or.inr ⟨before, request, after, rfl, hlimit, hadmitted, rfl⟩

/-- No counter value is used for two messages if and only if a request that is
sealed but does not go through is never followed by another message before the
counter advances. -/
theorem sealLog_unique_iff :
    (∀ counter left right, (counter, left) ∈ sealLog limit value requests →
      (counter, right) ∈ sealLog limit value requests → left = right) ↔
    ∀ before first between second after,
      requests = before ++ first :: (between ++ second :: after) →
      counterAfter limit value before < limit →
      first.admitted = true → second.admitted = true →
      (∀ request ∈ first :: between, request.advances = false) →
      first.message = second.message := by
  constructor
  · intro hunique before first between second after hrequests hlimit hfirst hsecond hvain
    have hsame : counterAfter limit value (before ++ first :: between) =
        counterAfter limit value before := by
      rw [counterAfter_append, counterAfter_eq_self_iff hlimit]
      exact hvain
    have hsplit : requests = (before ++ first :: between) ++ second :: after := by
      rw [hrequests, List.append_assoc, List.cons_append]
    refine hunique (counterAfter limit value before) first.message second.message ?_ ?_
    · exact mem_sealLog.mpr ⟨before, first, _, hrequests, hlimit, hfirst, rfl⟩
    · exact mem_sealLog.mpr ⟨_, second, after, hsplit, by rw [hsame]; exact hlimit, hsecond,
        by rw [hsame]⟩
  · intro hvain
    -- Of two requests with one counter value, one comes first and nothing advances between.
    have hordered : ∀ before first between second after,
        requests = before ++ first :: (between ++ second :: after) →
        counterAfter limit value before < limit →
        first.admitted = true → second.admitted = true →
        counterAfter limit value (before ++ first :: between) =
          counterAfter limit value before → first.message = second.message := by
      intro before first between second after hrequests hlimit hfirst hsecond hsame
      rw [counterAfter_append, counterAfter_eq_self_iff hlimit] at hsame
      exact hvain before first between second after hrequests hlimit hfirst hsecond hsame
    intro counter left right hleft hright
    obtain ⟨before, first, after, hrequests, hlimit, hfirst, hentry⟩ := mem_sealLog.mp hleft
    obtain ⟨before', second, after', hrequests', hlimit', hsecond, hentry'⟩ :=
      mem_sealLog.mp hright
    cases hentry
    obtain ⟨hcounter, hmessage⟩ := Prod.mk.injEq _ _ _ _ ▸ hentry'
    rw [hmessage]
    rcases List.append_eq_append_iff.mp (hrequests.symm.trans hrequests') with
      ⟨middle, hmiddle, hrest⟩ | ⟨middle, hmiddle, hrest⟩
    · cases middle with
      | nil =>
          cases hrest
          rfl
      | cons head between =>
          cases hrest
          subst hmiddle
          exact hordered before first between second after' hrequests hlimit hfirst
            hsecond hcounter.symm
    · cases middle with
      | nil =>
          cases hrest
          rfl
      | cons head between =>
          cases hrest
          subst hmiddle
          exact (hordered before' second between first after hrequests' hlimit' hsecond
            hfirst hcounter).symm

end Counter

end Crypto
