import OpenCam.Bytes.BigEndian

/-!
Encodings that show where they end. `Splits` says that the encoding of a
bounded value, followed by anything, determines the value and what follows;
formats built from such parts, one after another or as counted lists, have
the same property.
-/

namespace Octets

variable {α : Type}

def Splits (encode : α → Bytes) (Bounded : α → Prop) : Prop :=
  ∀ left right front back, Bounded left → Bounded right →
    encode left ++ front = encode right ++ back → left = right ∧ front = back

namespace Splits

variable {encode : α → Bytes} {Bounded : α → Prop}

theorem injective (splits : Splits encode Bounded) {left right : α} (hleft : Bounded left)
    (hright : Bounded right) (h : encode left = encode right) : left = right :=
  (splits left right [] [] hleft hright (by rw [h])).1

theorem imp (splits : Splits encode Bounded) {Stronger : α → Prop}
    (himp : ∀ value, Stronger value → Bounded value) : Splits encode Stronger :=
  fun left right front back hleft hright =>
    splits left right front back (himp left hleft) (himp right hright)

/-- An injective encoding of one fixed length. -/
theorem fixed (size : Nat) (hsize : ∀ value, (encode value).length = size)
    (hinjective : ∀ left right, Bounded left → Bounded right →
      encode left = encode right → left = right) : Splits encode Bounded := by
  intro left right front back hleft hright h
  obtain ⟨hencode, hrest⟩ := List.append_inj h ((hsize left).trans (hsize right).symm)
  exact ⟨hinjective left right hleft hright hencode, hrest⟩

theorem counted_items (splits : Splits encode Bounded) (left right : List α) (front back : Bytes)
    (hlength : left.length = right.length) (hleft : ∀ value ∈ left, Bounded value)
    (hright : ∀ value ∈ right, Bounded value)
    (h : left.flatMap encode ++ front = right.flatMap encode ++ back) :
    left = right ∧ front = back := by
  induction left generalizing right with
  | nil =>
      obtain rfl := List.length_eq_zero_iff.mp hlength.symm
      exact ⟨rfl, h⟩
  | cons value rest ih =>
      cases right with
      | nil => cases hlength
      | cons other others =>
          rw [List.flatMap_cons, List.flatMap_cons, List.append_assoc, List.append_assoc] at h
          rw [List.forall_mem_cons] at hleft hright
          obtain ⟨rfl, htail⟩ := splits _ _ _ _ hleft.1 hright.1 h
          obtain ⟨rfl, hback⟩ := ih others (Nat.succ.inj hlength) hleft.2 hright.2 htail
          exact ⟨rfl, hback⟩

/-- The count of a list, then its items. -/
theorem counted (splits : Splits encode Bounded) :
    Splits (fun items : List α => beBytes 2 items.length ++ items.flatMap encode)
      (fun items => items.length < 65536 ∧ ∀ value ∈ items, Bounded value) := by
  intro left right front back hleft hright h
  rw [List.append_assoc, List.append_assoc] at h
  obtain ⟨hcount, htail⟩ := List.append_inj h (by simp)
  have hlength : left.length = right.length := beBytes_inj hleft.1 hright.1 hcount
  exact counted_items splits left right front back hlength hleft.2 hright.2 htail

/-- A byte string behind its length. -/
theorem lengthPrefixed : Splits (fun value : Bytes => beBytes 2 value.length ++ value)
    (fun value => value.length < 65536) := by
  intro left right front back hleft hright h
  rw [List.append_assoc, List.append_assoc] at h
  obtain ⟨hcount, htail⟩ := List.append_inj h (by simp)
  have hlength : left.length = right.length := beBytes_inj hleft hright hcount
  exact List.append_inj htail hlength

end Splits

end Octets
