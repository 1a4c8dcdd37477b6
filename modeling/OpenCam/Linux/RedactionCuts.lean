import OpenCam.Linux.CredentialRedaction

/-!
What `redactCompleteLine` leaves alone. Its output is the line with some stretches
of user information replaced, one after another; everything else is copied once
and in its order.
-/

namespace OpenCam.Linux

open Octets

/-- A stretch of a line, from one position up to another. -/
structure Cut where
  start : Nat
  stop : Nat
deriving DecidableEq, Repr

/-- Where the scan takes the authority behind a position to end. -/
def authorityEnd (text : Bytes) (start : Nat) : Nat :=
  (findFirstOf text authorityTerminators start).getD text.length

/-- The stretch starts right behind a scheme and ends right before an at sign that
stands in front of the end of the authority. -/
structure IsUserinfo (text : Bytes) (cut : Cut) : Prop where
  ordered : cut.start ≤ cut.stop
  scheme : ∃ front word, text.take cut.start = front ++ word ∧ IsScheme word
  atSign : text[cut.stop]? = some 64
  inAuthority : cut.stop < authorityEnd text cut.start

/-- The text from a cursor on, with stretches replaced. -/
def replaceCuts (text : Bytes) : Nat → List Cut → Bytes
  | cursor, [] => text.drop cursor
  | cursor, cut :: cuts =>
      slice text cursor cut.start ++ ascii "[REDACTED]" ++ replaceCuts text cut.stop cuts

section Copying

variable {text : Bytes} {cursor next stop : Nat}

theorem slice_append (hnext : cursor ≤ next) (hstop : next ≤ stop) :
    slice text cursor next ++ slice text next stop = slice text cursor stop := by
  have hlength : stop - cursor = (next - cursor) + (stop - next) := by omega
  rw [slice, slice, slice, hlength, List.take_add, List.drop_drop, Nat.add_sub_of_le hnext]

theorem slice_drop (hnext : cursor ≤ next) :
    slice text cursor next ++ text.drop next = text.drop cursor := by
  have hdrop : text.drop next = (text.drop cursor).drop (next - cursor) := by
    rw [List.drop_drop, Nat.add_sub_of_le hnext]
  rw [slice, hdrop, List.take_append_drop]

/-- In front of the first stretch the text is copied. -/
theorem replaceCuts_copy {cuts : List Cut} (hnext : cursor ≤ next)
    (hcuts : ∀ cut ∈ cuts, next ≤ cut.start) :
    replaceCuts text cursor cuts = slice text cursor next ++ replaceCuts text next cuts := by
  cases cuts with
  | nil => exact (slice_drop hnext).symm
  | cons cut cuts =>
      have hstart : next ≤ cut.start := hcuts cut List.mem_cons_self
      rw [replaceCuts, replaceCuts, ← slice_append hnext hstart]
      simp only [List.append_assoc]

end Copying

section Scan

variable {text : Bytes}

/-- The scan replaces stretches of user information that lie behind its cursor. -/
theorem Redacts.cuts {rest output : Bytes} (h : Redacts rest output) {cursor : Nat}
    (hcursor : cursor ≤ text.length) (hrest : text.drop cursor = rest) :
    ∃ cuts : List Cut, (∀ cut ∈ cuts, cursor ≤ cut.start ∧ IsUserinfo text cut) ∧
      cuts.Pairwise (fun earlier later => earlier.stop < later.start) ∧
      output = replaceCuts text cursor cuts := by
  induction h generalizing cursor with
  | plain _ => exact ⟨[], by simp, .nil, hrest.symm⟩
  | @url line front scheme behind output hurl _ ih =>
      obtain ⟨hline, hscheme, _⟩ := splitScheme_some hurl
      have hsplit : text.drop cursor = (front ++ scheme) ++ behind := by
        rw [hrest, hline, List.append_assoc]
      have hlength := congrArg List.length hsplit
      simp only [List.length_drop, List.length_append] at hlength
      obtain ⟨start, hstart⟩ : ∃ start, start = cursor + (front ++ scheme).length := ⟨_, rfl⟩
      have hbehind : text.drop start = behind := by
        rw [hstart, ← List.drop_drop, hsplit, List.drop_left]
      have hcopied : slice text cursor start = front ++ scheme := by
        rw [slice, hsplit, hstart, Nat.add_sub_cancel_left, List.take_left]
      rw [List.length_append] at hstart
      have hwhole := congrArg List.length (authorityOf_append behind)
      rw [List.length_append] at hwhole
      obtain ⟨last, hlast⟩ : ∃ last, last = start + (authorityOf behind).length := ⟨_, rfl⟩
      have hend : authorityEnd text start = last := by
        rw [authorityEnd, findFirstOf_eq (by omega), hbehind, hlast]
      have hlater : text.drop last = behindAuthority behind := by
        rw [hlast, ← List.drop_drop, hbehind]
        nth_rewrite 2 [← authorityOf_append behind]
        rw [List.drop_left]
      obtain ⟨cuts, hcuts, hordered, rfl⟩ := ih (by omega) hlater
      have hbound : ∀ cut ∈ cuts, last ≤ cut.start := fun cut hcut => (hcuts cut hcut).1
      have hbehindCuts : ∀ cut ∈ cuts, cursor ≤ cut.start ∧ IsUserinfo text cut := by
        intro cut hcut
        have hfar := hbound cut hcut
        exact ⟨by omega, (hcuts cut hcut).2⟩
      by_cases hsign : 64 ∈ authorityOf behind
      · obtain ⟨before, after, hauthority, hafter⟩ := exists_last_at hsign
        have hparts := congrArg List.length hauthority
        rw [List.length_append, List.length_cons] at hparts
        obtain ⟨stop, hstop⟩ : ∃ stop, stop = start + before.length := ⟨_, rfl⟩
        have hall : behind = before ++ ((64 :: after) ++ behindAuthority behind) := by
          rw [← List.append_assoc, ← hauthority, authorityOf_append]
        have hat : text.drop stop = (64 :: after) ++ behindAuthority behind := by
          rw [hstop, ← List.drop_drop, hbehind]
          exact (congrArg (List.drop before.length) hall).trans List.drop_left
        have hkept : slice text stop last = 64 :: after := by
          have hcount : last - stop = (64 :: after).length := by
            rw [List.length_cons]
            omega
          rw [slice, hat, hcount, List.take_left]
        refine ⟨⟨start, stop⟩ :: cuts, ?_, ?_, ?_⟩
        · rw [List.forall_mem_cons]
          refine ⟨⟨by simp only; omega, ?_⟩, hbehindCuts⟩
          exact
            { ordered := by simp only; omega
              scheme := by
                refine ⟨text.take cursor ++ front, scheme, ?_, hscheme⟩
                rw [List.append_assoc, ← hcopied, slice, ← List.take_add,
                  Nat.add_sub_of_le (by omega)]
              atSign := by
                have hhead := congrArg List.head? hat
                rwa [List.head?_drop] at hhead
              inAuthority := by
                rw [hend]
                simp only
                omega }
        · apply List.Pairwise.cons _ hordered
          intro cut hcut
          have hfar := hbound cut hcut
          simp only
          omega
        · have hcopy : replaceCuts text stop cuts = slice text stop last ++ replaceCuts text last cuts :=
            replaceCuts_copy (by omega) hbound
          rw [replaceCuts, hcopy, hkept, hcopied, hauthority, redactedAuthority_at before hafter]
          simp [ascii]
      · refine ⟨cuts, hbehindCuts, hordered, ?_⟩
        have hkept : slice text start last = authorityOf behind := by
          rw [slice, hbehind, hlast, Nat.add_sub_cancel_left]
          nth_rewrite 2 [← authorityOf_append behind]
          rw [List.take_left]
        have hfar : start ≤ last := by omega
        have hnear : cursor ≤ start := by omega
        rw [replaceCuts_copy (hnear.trans hfar) hbound, ← slice_append hnear hfar, hcopied, hkept,
          redactedAuthority_bare hsign]
        simp only [List.append_assoc]

/-- What the scan makes of a text is determined. -/
theorem Redacts.unique {rest output output' : Bytes} (h : Redacts rest output)
    (h' : Redacts rest output') : output = output' := by
  induction h generalizing output' with
  | plain hplain =>
      cases h' with
      | plain => rfl
      | url hurl => rw [hplain] at hurl; cases hurl
  | url hurl _ ih =>
      cases h' with
      | plain hplain => rw [hplain] at hurl; cases hurl
      | url hurl' hlater' =>
          rw [hurl] at hurl'
          cases hurl'
          rw [ih hlater']

/-- The loop ends within as many passes as the line has bytes, and one more. Its
output is the line with pairwise disjoint stretches of user information replaced,
in order; where there is no user information, it is the line. -/
theorem redactCompleteLine_cuts (text : Bytes) :
    (∀ passes, text.length < passes → redactFrom text passes 0 = redactCompleteLine text) ∧
      (∃ cuts : List Cut, (∀ cut ∈ cuts, IsUserinfo text cut) ∧
        cuts.Pairwise (fun earlier later => earlier.stop < later.start) ∧
        redactCompleteLine text = replaceCuts text 0 cuts) ∧
      ((∀ cut, ¬ IsUserinfo text cut) → redactCompleteLine text = text) := by
  have hscan : Redacts text (redactCompleteLine text) := redacts_redactRtspCredentials text
  obtain ⟨cuts, hcuts, hordered, houtput⟩ := hscan.cuts (Nat.zero_le _) rfl
  refine ⟨?_, ⟨cuts, fun cut hcut => (hcuts cut hcut).2, hordered, houtput⟩, ?_⟩
  · intro passes hpasses
    have hlonger : Redacts text (redactFrom text passes 0) := @redacts_redactFrom text passes 0 hpasses
    exact hlonger.unique hscan
  · intro hnone
    have hempty : cuts = [] := List.eq_nil_iff_forall_not_mem.mpr fun cut hcut =>
      hnone cut (hcuts cut hcut).2
    rw [houtput, hempty]
    rfl

end Scan

end OpenCam.Linux
