import Mathlib.Order.Defs.Unbundled
import Mathlib.Tactic

/-!
Maps whose entries are kept in the order of their keys, as a search tree lists
them. Every write is one operation: the value of a key is computed from the value
that was there, if any.
-/

namespace OrderedMap

variable {κ v : Type} [DecidableEq κ] (less : κ → κ → Prop) [DecidableRel less]

/-- Change the value of a key, or add the key at its place. -/
def update (key : κ) (change : Option v → v) : List (κ × v) → List (κ × v)
  | [] => [(key, change none)]
  | entry :: rest =>
      if entry.1 = key then (entry.1, change (some entry.2)) :: rest
      else if less key entry.1 then (key, change none) :: entry :: rest
      else entry :: update key change rest

/-- The keys are strictly ascending. -/
def Sorted (entries : List (κ × v)) : Prop :=
  entries.Pairwise fun left right => less left.1 right.1

/-- The value of a key. -/
def value? (key : κ) (entries : List (κ × v)) : Option v :=
  (entries.find? fun entry => entry.1 = key).map Prod.snd

section Reading

variable {less} {key : κ} {change : Option v → v}

theorem value?_cons (entry : κ × v) (rest : List (κ × v)) (key : κ) :
    value? key (entry :: rest) = if entry.1 = key then some entry.2 else value? key rest := by
  unfold value?
  rw [List.find?_cons]
  by_cases h : entry.1 = key
  · simp [h]
  · simp [h]

theorem mem_update {entry : κ × v} {entries : List (κ × v)}
    (h : entry ∈ update less key change entries) :
    entry = (key, change none) ∨
      (∃ old, (key, old) ∈ entries ∧ entry = (key, change (some old))) ∨ entry ∈ entries := by
  induction entries with
  | nil => exact Or.inl (List.mem_singleton.mp h)
  | cons first rest ih =>
      rw [update] at h
      split at h
      · next hkey =>
          rcases List.mem_cons.mp h with rfl | hrest
          · subst hkey
            exact Or.inr (Or.inl ⟨first.2, List.mem_cons_self, rfl⟩)
          · exact Or.inr (Or.inr (List.mem_cons_of_mem first hrest))
      · split at h
        · rcases List.mem_cons.mp h with rfl | hrest
          · exact Or.inl rfl
          · exact Or.inr (Or.inr hrest)
        · rcases List.mem_cons.mp h with rfl | hrest
          · exact Or.inr (Or.inr List.mem_cons_self)
          · rcases ih hrest with hnew | ⟨old, hold, hentry⟩ | hmem
            · exact Or.inl hnew
            · exact Or.inr (Or.inl ⟨old, List.mem_cons_of_mem first hold, hentry⟩)
            · exact Or.inr (Or.inr (List.mem_cons_of_mem first hmem))

end Reading

section Order

variable {less} [IsStrictTotalOrder κ less] {key : κ} {change : Option v → v}
  {entries : List (κ × v)}

theorem update_sorted (h : Sorted less entries) : Sorted less (update less key change entries) := by
  induction entries with
  | nil => exact List.pairwise_singleton _ _
  | cons entry rest ih =>
      obtain ⟨hhead, hrest⟩ := List.pairwise_cons.mp h
      rw [update]
      split
      · exact List.pairwise_cons.mpr ⟨hhead, hrest⟩
      · next hne =>
          split
          · next hless =>
              refine List.pairwise_cons.mpr ⟨fun other hmem => ?_, h⟩
              rcases List.mem_cons.mp hmem with rfl | hmem
              · exact hless
              · exact trans_of less hless (hhead other hmem)
          · next hnot =>
              refine List.pairwise_cons.mpr ⟨fun other hmem => ?_, ih hrest⟩
              have hbefore : less entry.1 key :=
                ((trichotomous_of less entry.1 key).resolve_right fun h =>
                  h.elim hne hnot)
              rcases mem_update hmem with rfl | ⟨_, _, rfl⟩ | hmem
              · exact hbefore
              · exact hbefore
              · exact hhead other hmem

omit [DecidableRel less] in
theorem value?_of_mem (h : Sorted less entries) {value : v} (hmem : (key, value) ∈ entries) :
    value? key entries = some value := by
  induction entries with
  | nil => exact absurd hmem List.not_mem_nil
  | cons entry rest ih =>
      obtain ⟨hhead, hrest⟩ := List.pairwise_cons.mp h
      rw [value?_cons]
      rcases List.mem_cons.mp hmem with rfl | hmem
      · exact if_pos rfl
      · rw [if_neg (ne_of_irrefl (hhead _ hmem)), ih hrest hmem]

/-- A key behind all others is added at the end. -/
theorem update_append (h : ∀ entry ∈ entries, less entry.1 key) :
    update less key change entries = entries ++ [(key, change none)] := by
  induction entries with
  | nil => rfl
  | cons entry rest ih =>
      rw [List.forall_mem_cons] at h
      have hne : entry.1 ≠ key := ne_of_irrefl h.1
      rw [update, if_neg hne, if_neg (asymm_of less h.1), ih h.2, List.cons_append]

/-- The last key is changed in place. -/
theorem update_last (h : ∀ entry ∈ entries, less entry.1 key) (old : v) :
    update less key change (entries ++ [(key, old)]) = entries ++ [(key, change (some old))] := by
  induction entries with
  | nil => rw [List.nil_append, update, if_pos rfl, List.nil_append]
  | cons entry rest ih =>
      rw [List.forall_mem_cons] at h
      have hne : entry.1 ≠ key := ne_of_irrefl h.1
      rw [List.cons_append, update, if_neg hne, if_neg (asymm_of less h.1), ih h.2,
        List.cons_append]

/-- Entries written one by one in their order make up the map. -/
theorem foldl_update {w : Type} (change : w → Option v → v) {items : List (κ × w)}
    (hitems : items.Pairwise fun left right => less left.1 right.1)
    (hbefore : ∀ entry ∈ entries, ∀ item ∈ items, less entry.1 item.1) :
    items.foldl (fun map item => update less item.1 (change item.2) map) entries =
      entries ++ items.map fun item => (item.1, change item.2 none) := by
  induction items generalizing entries with
  | nil => exact (List.append_nil _).symm
  | cons item items ih =>
      obtain ⟨hhead, hrest⟩ := List.pairwise_cons.mp hitems
      have hfirst : update less item.1 (change item.2) entries =
          entries ++ [(item.1, change item.2 none)] :=
        update_append fun entry hmem => hbefore entry hmem item List.mem_cons_self
      rw [List.foldl_cons, hfirst, ih hrest, List.map_cons, List.append_assoc]
      · rfl
      · intro entry hmem other hother
        rcases List.mem_append.mp hmem with hmem | hmem
        · exact hbefore entry hmem other (List.mem_cons_of_mem item hother)
        · rw [List.mem_singleton.mp hmem]
          exact hhead other hother

end Order

end OrderedMap
