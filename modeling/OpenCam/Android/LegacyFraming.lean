import OpenCam.Android.LegacyLength

/-!
The phone cuts the control stream of a USB session into messages by their
lengths, and handles the same packets however the stream arrives.
-/

namespace OpenCam.Android

open Octets Jvm PacketType

section Recording

namespace StreamActivity

variable {environment : Environment}

/-- The session apart from its end of the stream. -/
def rest (activity : StreamActivity) : StreamActivity :=
  { activity with legacyPending := [], closed := false }

/-- A packet is handled without a look at the stream. -/
theorem handle_ok {activity handled : StreamActivity} {message : Bytes}
    (h : activity.handle environment message = .ok handled) :
    handled.closed = activity.closed ∧
      activity.rest.handle environment message = .ok handled.rest := by
  unfold handle at h ⊢
  have hfresh : activity.rest.streamer = activity.streamer := rfl
  rw [hfresh]
  cases hcall : handlePacket environment activity.streamer.fresh (unsignedByte message 0)
      (message.drop 1) with
  | error failure => rw [hcall] at h; cases h
  | ok call =>
      rw [hcall] at h
      simp only [ok_bind] at h ⊢
      cases hdone : activity.streamer.call environment call with
      | none => rw [hdone] at h; cases h; exact ⟨rfl, rfl⟩
      | some streamer => rw [hdone] at h; cases h; exact ⟨rfl, rfl⟩

theorem handle_error {activity : StreamActivity} {message : Bytes} {failure : Throwable}
    (h : activity.handle environment message = .error failure) :
    activity.rest.handle environment message = .error failure := by
  unfold handle at h ⊢
  have hfresh : activity.rest.streamer = activity.streamer := rfl
  rw [hfresh]
  cases hcall : handlePacket environment activity.streamer.fresh (unsignedByte message 0)
      (message.drop 1) with
  | error _ => rw [hcall] at h; exact h
  | ok call =>
      rw [hcall] at h
      simp only [ok_bind] at h
      cases hdone : activity.streamer.call environment call with
      | none => rw [hdone] at h; cases h
      | some streamer => rw [hdone] at h; cases h

end StreamActivity

/-- A session with the arguments of its calls of `handlePacket`, the refused one
included. -/
structure Recorded where
  activity : StreamActivity
  packets : List (Nat × Bytes)

namespace Recorded

variable (environment : Environment)

/-- The call of `handlePacket` for a message is recorded before it is made. -/
def call (recorded : Recorded) (message : Bytes) : Recorded :=
  { recorded with
    packets := recorded.packets ++ [(unsignedByte message 0, message.drop 1)] }

/-- `StreamActivity.drain` with its calls. -/
def drain : Nat → Recorded → Recorded
  | 0, recorded => recorded
  | rounds + 1, recorded =>
      let pending := recorded.activity.legacyPending
      match legacyMessageLength pending with
      | .error _ => { recorded with activity := recorded.activity.close }
      | .ok none => recorded
      | .ok (some length) =>
          let called := recorded.call (pending.take length)
          match recorded.activity.handle environment (pending.take length) with
          | .error _ => { called with activity := recorded.activity.close }
          | .ok handled => drain rounds
              { called with activity := { handled with legacyPending := pending.drop length } }

def onLegacyBytesReceived (recorded : Recorded) (bytes : Bytes) : Recorded :=
  let activity := recorded.activity
  if activity.closed then recorded
  else if bytes.length < 1 || activity.legacyPending.length + bytes.length > 65536 then
    { recorded with activity := activity.close }
  else
    let pending := activity.legacyPending ++ bytes
    drain environment (pending.length + 1)
      { recorded with activity := { activity with legacyPending := pending } }

def receiveAll (recorded : Recorded) (pieces : List Bytes) : Recorded :=
  pieces.foldl (onLegacyBytesReceived environment) recorded

theorem drain_activity (rounds : Nat) (recorded : Recorded) :
    (recorded.drain environment rounds).activity = recorded.activity.drain environment rounds := by
  induction rounds generalizing recorded with
  | zero => rfl
  | succ rounds ih =>
      simp only [drain, StreamActivity.drain]
      cases legacyMessageLength recorded.activity.legacyPending with
      | error failure => rfl
      | ok found =>
          cases found with
          | none => rfl
          | some length =>
              cases hhandle : recorded.activity.handle environment
                (recorded.activity.legacyPending.take length) with
              | error failure => simp only [hhandle]
              | ok handled =>
                  simp only [hhandle]
                  exact ih _

/-- The record leaves the session as it is. -/
theorem receiveAll_activity (recorded : Recorded) (pieces : List Bytes) :
    (recorded.receiveAll environment pieces).activity =
      recorded.activity.receiveAll environment pieces := by
  induction pieces generalizing recorded with
  | nil => rfl
  | cons piece pieces ih =>
      have hpiece : (recorded.onLegacyBytesReceived environment piece).activity =
          recorded.activity.onLegacyBytesReceived environment piece := by
        simp only [onLegacyBytesReceived, StreamActivity.onLegacyBytesReceived]
        split_ifs
        · rfl
        · rfl
        · exact drain_activity environment _ _
      rw [receiveAll, List.foldl_cons, StreamActivity.receiveAll, List.foldl_cons, ← hpiece]
      exact ih _

def rest (recorded : Recorded) : Recorded :=
  { recorded with activity := recorded.activity.rest }

/-- The session as the receiver of a stream. -/
def receiving (recorded : Recorded) : Receiving Recorded :=
  ⟨recorded.activity.legacyPending, recorded.rest, recorded.activity.closed⟩

/-- What the session does with a message, and whether it accepts it. -/
def handle (recorded : Recorded) (message : Bytes) : Recorded × Bool :=
  match recorded.activity.handle environment message with
  | .error _ => (recorded.call message, false)
  | .ok handled => ({ recorded.call message with activity := handled }, true)

variable {environment}

theorem receiving_drain (rounds : Nat) {recorded : Recorded}
    (hopen : recorded.activity.closed = false) :
    (recorded.drain environment rounds).receiving =
      legacyFramer.drain (handle environment) rounds recorded.activity.legacyPending
        recorded.rest := by
  induction rounds generalizing recorded with
  | zero => simp only [drain, Framer.drain, receiving, hopen]
  | succ rounds ih =>
      simp only [drain, Framer.drain, legacyFramer, legacyFront]
      cases legacyMessageLength recorded.activity.legacyPending with
      | error failure => rfl
      | ok found =>
          cases found with
          | none => simp only [receiving, hopen]
          | some length =>
              cases hhandle : recorded.activity.handle environment
                (recorded.activity.legacyPending.take length) with
              | error failure =>
                  have hrest := StreamActivity.handle_error hhandle
                  simp only [hhandle, handle, rest, hrest, Bool.false_eq_true, if_false]
                  rfl
              | ok handled =>
                  obtain ⟨hclosed, hrest⟩ := StreamActivity.handle_ok hhandle
                  have hloop := @ih { recorded.call
                      (recorded.activity.legacyPending.take length) with
                    activity := { handled with
                      legacyPending := recorded.activity.legacyPending.drop length } }
                    (hclosed.trans hopen)
                  simp only [hhandle, handle, rest, hrest, if_true]
                  exact hloop

theorem receiving_onLegacyBytesReceived (recorded : Recorded) {bytes : Bytes}
    (hbytes : 1 ≤ bytes.length) :
    (recorded.onLegacyBytesReceived environment bytes).receiving =
      legacyFramer.feed (handle environment) 65536 recorded.receiving bytes := by
  have hclosed : recorded.receiving.closed = recorded.activity.closed := rfl
  have hpending : recorded.receiving.pending = recorded.activity.legacyPending := rfl
  rw [Framer.feed, hclosed, hpending]
  unfold onLegacyBytesReceived
  dsimp only
  by_cases hopen : recorded.activity.closed = true
  · rw [if_pos hopen, if_pos hopen]
  rw [if_neg hopen, if_neg hopen]
  by_cases hroom : recorded.activity.legacyPending.length + bytes.length > 65536
  · have hfull : (bytes.length < 1 ||
        recorded.activity.legacyPending.length + bytes.length > 65536) = true := by
      simp only [hroom, decide_true, Bool.or_true]
    rw [if_pos hfull, if_pos hroom]
    rfl
  · have hfits : (bytes.length < 1 ||
        recorded.activity.legacyPending.length + bytes.length > 65536) = false := by
      simp only [hroom, decide_false, Bool.or_false, decide_eq_false_iff_not]
      omega
    rw [hfits, if_neg Bool.false_ne_true, if_neg hroom]
    exact receiving_drain _ (Bool.not_eq_true _ ▸ hopen)

/-- The session is the receiver of its stream. -/
theorem receiving_receiveAll (recorded : Recorded) {pieces : List Bytes}
    (hpieces : ∀ piece ∈ pieces, 1 ≤ piece.length) :
    (recorded.receiveAll environment pieces).receiving =
      legacyFramer.feedAll (handle environment) 65536 recorded.receiving pieces := by
  induction pieces generalizing recorded with
  | nil => rfl
  | cons piece pieces ih =>
      rw [List.forall_mem_cons] at hpieces
      rw [receiveAll, List.foldl_cons, Framer.feedAll, List.foldl_cons,
        ← receiving_onLegacyBytesReceived recorded hpieces.1]
      exact ih _ hpieces.2

end Recorded

/-- A stream as the reads of `receiveLoop` may cut it. -/
structure Cuts (stream : Bytes) (pieces : List Bytes) : Prop where
  flatten : pieces.flatten = stream
  sizes : ∀ piece ∈ pieces, 1 ≤ piece.length ∧ piece.length ≤ LEGACY_BUFFER

/-- An open session keeps less than the longest message, however the stream was
cut. -/
theorem receiveAll_pending (environment : Environment) {activity : StreamActivity}
    (hempty : activity.legacyPending = []) {pieces : List Bytes}
    (hpieces : ∀ piece ∈ pieces, 1 ≤ piece.length)
    (hopen : (activity.receiveAll environment pieces).closed = false) :
    (activity.receiveAll environment pieces).legacyPending.length < LONGEST := by
  have hactivity := Recorded.receiveAll_activity environment ⟨activity, []⟩ pieces
  have hreceiving := @Recorded.receiving_receiveAll environment ⟨activity, []⟩ _ hpieces
  have hstart : legacyFront activity.legacyPending = .incomplete := by rw [hempty]; rfl
  have hkept := @Framer.feedAll_pending _ _ legacyFramer (Recorded.handle environment) 65536
    (Recorded.mk activity []).receiving pieces fun _ => hstart
  rw [← hreceiving] at hkept
  simp only [Recorded.receiving, hactivity] at hkept
  exact legacyMessageLength_bound.1 (legacyFront_incomplete.mp (hkept hopen))

theorem receiveAll_cuts (environment : Environment) {activity : StreamActivity}
    (hempty : activity.legacyPending = []) (hopen : activity.closed = false) {stream : Bytes}
    {pieces pieces' : List Bytes} (hcuts : Cuts stream pieces) (hcuts' : Cuts stream pieces') :
    let recorded := (Recorded.mk activity []).receiveAll environment pieces
    let recorded' := (Recorded.mk activity []).receiveAll environment pieces'
    recorded.activity = activity.receiveAll environment pieces ∧
      recorded'.activity = activity.receiveAll environment pieces' ∧
      recorded.packets = recorded'.packets ∧
      recorded.activity.closed = recorded'.activity.closed ∧
      recorded.activity.handled = recorded'.activity.handled ∧
      recorded.activity.streamer = recorded'.activity.streamer ∧
      (∀ front piece, front ++ [piece] <+: pieces →
        (activity.receiveAll environment front).closed = false →
        (activity.receiveAll environment front).legacyPending.length + piece.length < 65536) ∧
      ∀ data,
        (∀ size, legacyMessageLength data = .ok (some size) → size ≤ data.length ∧
          ∀ more, legacyMessageLength (data ++ more) = .ok (some size)) ∧
        ∀ failure, legacyMessageLength data = .error failure →
          ∀ more, legacyMessageLength (data ++ more) = .error failure := by
  have hlongest : LONGEST + LEGACY_BUFFER < 65536 := by decide
  have hstart : legacyFront activity.legacyPending = .incomplete := by rw [hempty]; rfl
  have hfits : ∀ {chunks}, Cuts stream chunks → legacyFramer.Fits (Recorded.handle environment)
      65536 (Recorded.mk activity []).receiving chunks := by
    intro chunks h
    apply @Framer.fits_of_bounded _ _ _ _ _ LONGEST
    · intro data hincomplete
      exact (legacyMessageLength_bound.1 (legacyFront_incomplete.mp hincomplete)).le
    · exact fun _ => hstart
    · intro chunk hmem
      have := h.sizes chunk hmem
      omega
  have hsame := @Framer.feedAll_cuts _ _ _ _ _ (Recorded.mk activity []).receiving _ _ hopen hstart
    (hfits hcuts) (hfits hcuts') (hcuts.flatten.trans hcuts'.flatten.symm)
  rw [← Recorded.receiving_receiveAll _ fun piece hmem => (hcuts.sizes piece hmem).1,
    ← Recorded.receiving_receiveAll _ fun piece hmem => (hcuts'.sizes piece hmem).1] at hsame
  obtain ⟨hrest, hclosed⟩ := hsame
  have hpackets := congrArg Recorded.packets hrest
  have hhandled := congrArg (fun state : Recorded => state.activity.handled) hrest
  have hstreamer := congrArg (fun state : Recorded => state.activity.streamer) hrest
  refine ⟨Recorded.receiveAll_activity .., Recorded.receiveAll_activity .., hpackets, hclosed,
    hhandled, hstreamer, ?_, legacyMessageLength_stable⟩
  intro front piece hfront hstill
  have hsizes := fun other hmem => hcuts.sizes other (hfront.subset hmem)
  have hkept := receiveAll_pending environment hempty
    (fun other hmem => (hsizes other (List.mem_append_left _ hmem)).1) hstill
  have hpiece := hsizes piece (List.mem_append_right _ List.mem_cons_self)
  omega

/-- A camera switch and a rotation, cut behind the first command or inside the
second. -/
theorem receiveAll_cuts_sample :
    ((Recorded.mk (.opened .initial) []).receiveAll Environment.capable
        [[3], [7, 90]]).packets =
      ((Recorded.mk (.opened .initial) []).receiveAll Environment.capable
        [[3, 7], [90]]).packets :=
  have hcuts : Cuts [3, 7, 90] [[3], [7, 90]] := ⟨rfl, by decide⟩
  have hcuts' : Cuts [3, 7, 90] [[3, 7], [90]] := ⟨rfl, by decide⟩
  (@receiveAll_cuts Environment.capable (.opened .initial) rfl rfl _ _ _ hcuts hcuts').2.2.1

end Recording

end OpenCam.Android
