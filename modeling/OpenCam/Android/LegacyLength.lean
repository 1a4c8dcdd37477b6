import OpenCam.Android.StreamActivity
import OpenCam.Bytes.Framing

/-!
The lengths of the control messages of a USB session. What `legacyMessageLength`
decides about the front of a stream it decides for good, and it decides within
the longest message.
-/

namespace OpenCam.Android

open Octets Jvm PacketType

section Settled

variable {data more : Bytes}

theorem unsignedByte_append {offset : Nat} (h : offset < data.length) :
    unsignedByte (data ++ more) offset = unsignedByte data offset := by
  rw [unsignedByte, unsignedByte, List.getD_eq_getElem?_getD, List.getD_eq_getElem?_getD,
    List.getElem?_append_left h]

theorem bigEndianShort_append {offset : Nat} (h : offset + 1 < data.length) :
    bigEndianShort (data ++ more) offset = bigEndianShort data offset := by
  rw [bigEndianShort, bigEndianShort, unsignedByte_append h, unsignedByte_append (by omega)]

/-- The filters that are there stay there. -/
theorem activationFilters_append {count offset : Nat}
    (h : activationFilters data count offset ≠ .ok none) :
    activationFilters (data ++ more) count offset = activationFilters data count offset := by
  induction count generalizing offset with
  | zero => rfl
  | succ count ih =>
      simp only [activationFilters] at h ⊢
      have hlength : data.length ≤ (data ++ more).length := by simp
      by_cases hshort : data.length < offset + 2
      · exact absurd (if_pos hshort) h
      rw [if_neg hshort] at h ⊢
      rw [if_neg (show ¬ (data ++ more).length < offset + 2 by omega),
        bigEndianShort_append (by omega)]
      by_cases hname : bigEndianShort data offset > 128
      · rw [if_pos hname, if_pos hname]
      rw [if_neg hname] at h ⊢
      rw [if_neg hname]
      by_cases hvalue : data.length < offset + 2 + bigEndianShort data offset + 4
      · exact absurd (if_pos hvalue) h
      rw [if_neg hvalue] at h ⊢
      rw [if_neg (by omega)]
      exact ih h

theorem activationLength_append (h : activationLength data ≠ .ok none) :
    activationLength (data ++ more) = activationLength data := by
  simp only [activationLength] at h ⊢
  have hlength : data.length ≤ (data ++ more).length := by simp
  by_cases hshort : data.length < 39
  · exact absurd (if_pos hshort) h
  rw [if_neg hshort] at h ⊢
  rw [if_neg (show ¬ (data ++ more).length < 39 by omega), bigEndianShort_append (by omega)]
  by_cases hcount : bigEndianShort data 37 > 128
  · rw [if_pos hcount, if_pos hcount]
  rw [if_neg hcount] at h ⊢
  rw [if_neg hcount]
  have hfilters : activationFilters data (bigEndianShort data 37) 39 ≠ .ok none := by
    intro hnone
    rw [hnone] at h
    exact h rfl
  rw [activationFilters_append hfilters]
  cases hresult : activationFilters data (bigEndianShort data 37) 39 with
  | error failure => rfl
  | ok found =>
      cases found with
      | none => exact absurd hresult hfilters
      | some offset =>
          rw [hresult] at h
          simp only [ok_bind] at h ⊢
          by_cases heffect : data.length < offset + 2
          · exact absurd (if_pos heffect) h
          rw [if_neg heffect, if_neg (by omega), bigEndianShort_append (by omega)]

theorem filterLength_append {extra : Nat} (h : filterLength data extra ≠ .ok none) :
    filterLength (data ++ more) extra = filterLength data extra := by
  simp only [filterLength] at h ⊢
  by_cases hshort : data.length < 2
  · exact absurd (if_pos hshort) h
  rw [if_neg hshort, if_neg (by rw [List.length_append]; omega), unsignedByte_append (by omega)]

theorem fixedLength_append (hsome : data ≠ []) (h : fixedLength data ≠ .ok none) :
    fixedLength (data ++ more) = fixedLength data := by
  have htype : unsignedByte (data ++ more) 0 = unsignedByte data 0 :=
    unsignedByte_append (List.length_pos_of_ne_nil hsome)
  simp only [fixedLength, htype] at h ⊢
  split_ifs at h ⊢ with _ _ _ _ _ heffect hcorrection hactivation
  · rfl
  · rfl
  · rfl
  · rfl
  · rfl
  · exact filterLength_append h
  · exact filterLength_append h
  · exact activationLength_append h
  · rfl

/-- What is decided about the front of a stream is decided for every stream that
begins so. -/
theorem legacyMessageLength_append (h : legacyMessageLength data ≠ .ok none) :
    legacyMessageLength (data ++ more) = legacyMessageLength data := by
  simp only [legacyMessageLength] at h ⊢
  cases data with
  | nil => exact absurd rfl h
  | cons type rest =>
      have hfixed : fixedLength (type :: rest) ≠ .ok none := by
        intro hnone
        rw [hnone] at h
        exact h rfl
      have happend := @fixedLength_append _ more (List.cons_ne_nil type rest) hfixed
      simp only [List.cons_append, List.isEmpty_cons, Bool.false_eq_true, if_false] at h happend ⊢
      rw [happend]
      cases hresult : fixedLength (type :: rest) with
      | error failure => rfl
      | ok found =>
          cases found with
          | none => exact absurd hresult hfixed
          | some fixed =>
              rw [hresult] at h
              simp only [ok_bind] at h ⊢
              by_cases hneed : fixed > 65536
              · rw [if_pos hneed, if_pos hneed]
              rw [if_neg hneed] at h ⊢
              rw [if_neg hneed]
              by_cases hshort : (type :: rest).length < fixed
              · exact absurd (if_pos hshort) h
              rw [if_neg hshort, if_neg]
              rw [← List.cons_append, List.length_append]
              omega

end Settled

section Longest

variable {data : Bytes}

/-- A filter of an activation takes at most 134 bytes. -/
theorem activationFilters_bound {count offset : Nat} :
    (activationFilters data count offset = .ok none → data.length < offset + count * 134) ∧
      ∀ behind, activationFilters data count offset = .ok (some behind) →
        offset ≤ behind ∧ behind ≤ offset + count * 134 := by
  induction count generalizing offset with
  | zero =>
      refine ⟨nofun, ?_⟩
      rintro behind ⟨⟩
      omega
  | succ count ih =>
      simp only [activationFilters]
      split_ifs with hshort hname hvalue
      · exact ⟨fun _ => by omega, nofun⟩
      · exact ⟨nofun, nofun⟩
      · exact ⟨fun _ => by omega, nofun⟩
      · obtain ⟨hnone, hsome⟩ := @ih (offset + 2 + bigEndianShort data offset + 4)
        constructor
        · intro h
          have := hnone h
          omega
        · intro behind h
          have := hsome behind h
          omega

/-- The longest message is an activation with 128 filters of the longest name. -/
def LONGEST : Nat := 39 + 128 * 134 + 2 + 128

theorem activationLength_bound :
    (activationLength data = .ok none → data.length < LONGEST) ∧
      ∀ size, activationLength data = .ok (some size) → 0 < size ∧ size ≤ LONGEST := by
  have hlongest : LONGEST = 17321 := rfl
  simp only [activationLength]
  split_ifs with hshort hcount
  · exact ⟨fun _ => by omega, nofun⟩
  · exact ⟨nofun, nofun⟩
  obtain ⟨hnone, hsome⟩ :=
    @activationFilters_bound data (bigEndianShort data 37) 39
  cases hresult : activationFilters data (bigEndianShort data 37) 39 with
  | error failure => exact ⟨nofun, nofun⟩
  | ok found =>
      cases found with
      | none =>
          have := hnone hresult
          exact ⟨fun _ => by omega, nofun⟩
      | some behind =>
          have := hsome behind hresult
          simp only [ok_bind]
          split_ifs with heffect hlength
          · exact ⟨fun _ => by omega, nofun⟩
          · exact ⟨nofun, nofun⟩
          · refine ⟨nofun, ?_⟩
            rintro size ⟨⟩
            omega

theorem filterLength_bound {extra : Nat} (hextra : extra ≤ 1) :
    (filterLength data extra = .ok none → data.length < LONGEST) ∧
      ∀ size, filterLength data extra = .ok (some size) → 0 < size ∧ size ≤ LONGEST := by
  have hlongest : LONGEST = 17321 := rfl
  simp only [filterLength]
  split_ifs with hshort hname
  · exact ⟨fun _ => by omega, nofun⟩
  · exact ⟨nofun, nofun⟩
  · refine ⟨nofun, ?_⟩
    rintro size ⟨⟩
    omega

theorem fixedLength_bound :
    (fixedLength data = .ok none → data.length < LONGEST) ∧
      ∀ size, fixedLength data = .ok (some size) → 0 < size ∧ size ≤ LONGEST := by
  have hconstant : ∀ constant, 0 < constant → constant ≤ LONGEST →
      ((Except.ok (some constant) : Except Throwable (Option Nat)) = .ok none →
        data.length < LONGEST) ∧
      ∀ size, (Except.ok (some constant) : Except Throwable (Option Nat)) = .ok (some size) →
        0 < size ∧ size ≤ LONGEST := by
    intro constant hpos hle
    refine ⟨nofun, ?_⟩
    rintro size ⟨⟩
    exact ⟨hpos, hle⟩
  simp only [fixedLength]
  split_ifs
  · exact hconstant 1 (by decide) (by decide)
  · exact hconstant 5 (by decide) (by decide)
  · exact hconstant 2 (by decide) (by decide)
  · exact hconstant 3 (by decide) (by decide)
  · exact hconstant 5 (by decide) (by decide)
  · exact filterLength_bound (by omega)
  · exact filterLength_bound (by omega)
  · exact activationLength_bound
  · exact ⟨nofun, nofun⟩

/-- The beginning of a message is shorter than the longest message, and a message
found is there. -/
theorem legacyMessageLength_bound :
    (legacyMessageLength data = .ok none → data.length < LONGEST) ∧
      ∀ size, legacyMessageLength data = .ok (some size) → 0 < size ∧ size ≤ data.length := by
  have hlongest : LONGEST = 17321 := rfl
  simp only [legacyMessageLength]
  cases data with
  | nil => exact ⟨fun _ => by rw [hlongest, List.length_nil]; omega, nofun⟩
  | cons type rest =>
      obtain ⟨hnone, hsome⟩ := @fixedLength_bound (type :: rest)
      simp only [List.isEmpty_cons, Bool.false_eq_true, if_false]
      cases hresult : fixedLength (type :: rest) with
      | error failure => exact ⟨nofun, nofun⟩
      | ok found =>
          cases found with
          | none => exact ⟨fun _ => hnone hresult, nofun⟩
          | some fixed =>
              have := hsome fixed hresult
              simp only [ok_bind]
              split_ifs with hneed hshort
              · exact ⟨nofun, nofun⟩
              · exact ⟨fun _ => by omega, nofun⟩
              · refine ⟨nofun, ?_⟩
                rintro size ⟨⟩
                omega

end Longest

/-- What is found at the front of a stream is found again when it goes on, and a
message found is there. -/
theorem legacyMessageLength_stable (data : Bytes) :
    (∀ size, legacyMessageLength data = .ok (some size) → size ≤ data.length ∧
      ∀ more, legacyMessageLength (data ++ more) = .ok (some size)) ∧
    ∀ failure, legacyMessageLength data = .error failure →
      ∀ more, legacyMessageLength (data ++ more) = .error failure := by
  constructor
  · intro size h
    refine ⟨(legacyMessageLength_bound.2 size h).2, fun more => ?_⟩
    rw [legacyMessageLength_append (by rw [h]; nofun), h]
  · intro failure h more
    rw [legacyMessageLength_append (by rw [h]; nofun), h]

/-- What the phone finds at the front of the stream. -/
def legacyFront (data : Bytes) : Parsed Bytes :=
  match legacyMessageLength data with
  | .error _ => .malformed
  | .ok none => .incomplete
  | .ok (some size) => .message (data.take size) size

theorem legacyFront_message {data value : Bytes} {size : Nat}
    (h : legacyFront data = .message value size) :
    legacyMessageLength data = .ok (some size) ∧ value = data.take size := by
  unfold legacyFront at h
  split at h
  · cases h
  · cases h
  · next hlength =>
      cases h
      exact ⟨hlength, rfl⟩

theorem legacyFront_malformed {data : Bytes} :
    legacyFront data = .malformed ↔ ∃ failure, legacyMessageLength data = .error failure := by
  unfold legacyFront
  split <;> simp_all

theorem legacyFront_incomplete {data : Bytes} :
    legacyFront data = .incomplete ↔ legacyMessageLength data = .ok none := by
  unfold legacyFront
  split <;> simp_all

/-- The control messages of a USB session as messages of a stream. -/
def legacyFramer : Framer Bytes where
  parse := legacyFront
  consumed := by
    intro data value size h
    exact legacyMessageLength_bound.2 size (legacyFront_message h).1
  message_stable := by
    intro data value size h more
    obtain ⟨hlength, rfl⟩ := legacyFront_message h
    have hsize := legacyMessageLength_bound.2 size hlength
    have happend := @legacyMessageLength_append _ more (by rw [hlength]; nofun)
    simp only [legacyFront, happend, hlength, List.take_append_of_le_length hsize.2]
  malformed_stable := by
    intro data h more
    obtain ⟨failure, hfailure⟩ := legacyFront_malformed.mp h
    have happend := @legacyMessageLength_append _ more (by rw [hfailure]; nofun)
    exact legacyFront_malformed.mpr ⟨failure, happend.trans hfailure⟩

end OpenCam.Android
