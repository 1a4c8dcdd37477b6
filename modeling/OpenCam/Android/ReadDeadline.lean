import OpenCam.Android.Transport

/-!
The limit of `readFrame` against a peer that sends when it likes. Time passes only while a read
waits; a read waits no longer than the timeout that was set before it. The timeout is at least
one millisecond, also when the limit has passed.
-/

namespace OpenCam.Android

open Octets Interaction Control

section Timing

/-- An event with the time at which its call came back. -/
abbrev TimedEvent := SocketEvent × Time

/-- The times fit: only reads wait, for the timeout at most where there is one. -/
def Timed (soTimeout : Int) : Time → List TimedEvent → Prop
  | _, [] => True
  | now, (⟨.clock, time⟩, after) :: rest => time = now ∧ after = now ∧ Timed soTimeout now rest
  | now, (⟨.setSoTimeout timeoutMs, _⟩, after) :: rest => after = now ∧ Timed timeoutMs now rest
  | now, (⟨.read _, _⟩, after) :: rest =>
      now ≤ after ∧ (soTimeout = 0 ∨ after ≤ now + soTimeout * 1000000) ∧ Timed soTimeout after rest
  | now, (_, after) :: rest => now ≤ after ∧ Timed soTimeout after rest

/-- The reader waits in a read or has ended. -/
def Settled : SocketProgram Frame → Prop
  | .ret _ | .throw _ => True
  | .call op _ => op.isRead = true
  | .unfinished => False

/-- Once the limit has passed, no read is issued, and no frame is returned that was not
complete then. -/
def OnTime (limit : Time) : Time → List TimedEvent → SocketProgram Frame → Prop
  | now, [], .ret _ => now ≤ limit
  | now, [], .call op _ => op.isRead = true → now < limit
  | _, [], _ => True
  | now, (⟨op, _⟩, after) :: rest, stop =>
      (op.isRead = true → now < limit) ∧ OnTime limit after rest stop

end Timing

section Frames

/-- The checks of `readFrame` on the header. -/
def headerAccepted (header : Bytes) : Prop :=
  (header.take 4 = MAGIC ∧ ((header.getD 4 0).toNat &&& 0xff : Nat) = VERSION) ∧
    0 ≤ getInt (header.drop 6) ∧ getInt (header.drop 6) ≤ MAX_PAYLOAD

/-- More bytes are to be read behind these. -/
def Unfinished (bytes : Bytes) : Prop :=
  bytes.length < HEADER_SIZE ∨ headerAccepted (bytes.take HEADER_SIZE) ∧
    bytes.length < HEADER_SIZE + (getInt ((bytes.take HEADER_SIZE).drop 6)).toNat

/-- These are the bytes of a frame. -/
def Complete (bytes : Bytes) : Prop :=
  HEADER_SIZE ≤ bytes.length ∧ headerAccepted (bytes.take HEADER_SIZE) ∧
    bytes.length = HEADER_SIZE + (getInt ((bytes.take HEADER_SIZE).drop 6)).toNat

/-- What the peer sends comes in time: what leaves more to be read before the limit, what
completes a frame by the limit. A piece that completes a rejected header may come later. -/
def Punctual (limit : Time) : Bytes → List TimedEvent → Prop
  | _, [] => True
  | bytes, (⟨.read _, .data piece⟩, after) :: rest =>
      (Unfinished (bytes ++ piece.val) → after < limit) ∧
        (Complete (bytes ++ piece.val) → after ≤ limit) ∧ Punctual limit (bytes ++ piece.val) rest
  | bytes, _ :: rest => Punctual limit bytes rest

end Frames

section Reading

/-- A reader that has read these bytes: it sets a timeout and reads on, it returns a frame, or
it has rejected the header. -/
inductive Reading (deadline : Time) : Bytes → SocketProgram Frame → Prop
  | wait {bytes : Bytes} {size : Nat} {next : ReadResult size → SocketProgram Frame}
      (hunfinished : Unfinished bytes)
      (hdata : ∀ piece, Reading deadline (bytes ++ piece.val) (next (.data piece)))
      (hend : ∃ error, next .endOfStream = .throw error)
      (hfailed : ∃ error, next .failed = .throw error) :
      Reading deadline bytes (.call .clock fun now =>
        .call (.setSoTimeout (remainingMs deadline now)) fun _ => .call (.read size) next)
  | returned {bytes : Bytes} {frame : Frame} (hcomplete : Complete bytes) :
      Reading deadline bytes (.ret frame)
  | rejected {bytes : Bytes} {error : String} (hunfinished : ¬ Unfinished bytes)
      (hcomplete : ¬ Complete bytes) : Reading deadline bytes (.throw error)

variable {timeoutMs : Int} {deadline : Time}

/-- The loop of `readExact` reads until its bytes are there. -/
theorem reading_loop {before part : Bytes} {size passes : Nat}
    {next : Option Bytes → SocketProgram Frame} (htimeout : 0 ≤ timeoutMs)
    (hpart : part.length ≤ size) (hpasses : size ≤ part.length + passes)
    (hunfinished : ∀ part : Bytes, part.length < size → Unfinished (before ++ part))
    (hfull : ∀ full : Bytes, full.length = size → Reading deadline (before ++ full) (next (some full)))
    (hnone : ∃ error, next none = .throw error) :
    Reading deadline (before ++ part)
      (readExactLoop size timeoutMs deadline passes part >>= next) := by
  have hnot : ¬ timeoutMs < 0 := Int.not_lt.mpr htimeout
  induction passes generalizing part with
  | zero =>
      have hsize : part.length = size := by omega
      rw [readExactLoop, if_neg (by omega)]
      exact hfull part hsize
  | succ passes ih =>
      rw [readExactLoop]
      by_cases hmore : part.length < size
      · rw [if_pos hmore, if_neg hnot]
        apply Reading.wait (hunfinished part hmore)
        · intro piece
          have hlength := piece.property.2
          have hpositive : 0 < piece.val.length := List.length_pos_iff.mpr piece.property.1
          rw [List.append_assoc]
          apply ih
          · rw [List.length_append]
            omega
          · rw [List.length_append]
            omega
        · exact hnone
        · exact hnone
      · rw [if_neg hmore]
        exact hfull part (by omega)

/-- `readExact` before the rest of a program. -/
theorem reading_readExact {before : Bytes} {size : Nat} {next : Bytes → Program Frame}
    (htimeout : 0 ≤ timeoutMs)
    (hunfinished : ∀ part : Bytes, part.length < size → Unfinished (before ++ part))
    (hfull : ∀ full : Bytes, full.length = size →
      Reading deadline (before ++ full) ((next full).refine socketHandler)) :
    Reading deadline before
      ((readExact size timeoutMs deadline >>= next).refine socketHandler) := by
  by_cases hzero : size = 0
  · rw [readExact, if_pos hzero, Prog.ret_bind]
    have hnext := hfull [] hzero.symm
    rwa [List.append_nil] at hnext
  · rw [readExact, if_neg hzero]
    have hloop : ∀ next : Option Bytes → SocketProgram Frame,
        (∀ full : Bytes, full.length = size →
          Reading deadline (before ++ full) (next (some full))) →
        (∃ error, next none = .throw error) →
          Reading deadline before (readExactLoop size timeoutMs deadline size [] >>= next) := by
      intro next hsome hnone
      have hreading := @reading_loop timeoutMs deadline before [] size size next htimeout
        (Nat.zero_le _) (by simp) hunfinished hsome hnone
      rwa [List.append_nil] at hreading
    rw [Prog.bind_assoc, Prog.perform_bind, Prog.refine_call, socketHandler, Prog.bind_assoc]
    apply hloop
    · intro full hlength
      dsimp only
      rw [dif_pos hlength]
      exact hfull full hlength
    · exact ⟨_, rfl⟩

theorem reading_rejected {header : Bytes} {error : String} (hlength : header.length = HEADER_SIZE)
    (hrejected : ¬ headerAccepted header) :
    Reading deadline header (.throw error) := by
  have htake : header.take HEADER_SIZE = header := by
    rw [← hlength, List.take_length]
  apply Reading.rejected
  · rintro (hshort | ⟨haccepted, _⟩)
    · omega
    · rw [htake] at haccepted
      exact hrejected haccepted
  · rintro ⟨_, haccepted, _⟩
    rw [htake] at haccepted
    exact hrejected haccepted

/-- After its header, `readFrame` reads the payload or throws. -/
theorem reading_readFrame (htimeout : 0 ≤ timeoutMs) (now : Time) :
    ∃ body, readFrameFrom timeoutMs = .call .clock body ∧
      Reading (now + timeoutMs * 1000000) [] (body now) := by
  rw [readFrameFrom, readFrame, readDeadline, if_neg (Int.not_lt.mpr htimeout), Prog.bind_assoc,
    Prog.perform_bind, Prog.refine_call]
  refine ⟨_, rfl, ?_⟩
  apply reading_readExact htimeout
  · intro part hpart
    exact Or.inl hpart
  · intro header hheader
    rw [List.nil_append]
    have hlength : header.length = HEADER_SIZE := hheader
    have htake : ∀ rest, (header ++ rest).take HEADER_SIZE = header := fun rest => by
      rw [← hlength, List.take_left]
    split
    · next hinvalid =>
        have hrejected : ¬ headerAccepted header := fun haccepted =>
          hinvalid.elim (absurd haccepted.1.1) (absurd haccepted.1.2)
        exact reading_rejected hlength hrejected
    · next hvalid =>
        obtain ⟨hmagic, hversion⟩ := not_or.mp hvalid
        dsimp only
        split
        · next hsize =>
            have hrejected : ¬ headerAccepted header := fun haccepted => by
              have hnonnegative := haccepted.2.1
              have hsmall := haccepted.2.2
              omega
            exact reading_rejected hlength hrejected
        · next hsize =>
            have haccepted : headerAccepted header :=
              ⟨⟨not_not.mp hmagic, not_not.mp hversion⟩, by omega, by omega⟩
            apply reading_readExact htimeout
            · intro part hpart
              refine Or.inr ?_
              rw [htake, List.length_append, hlength]
              exact ⟨haccepted, by omega⟩
            · intro payload hpayload
              refine .returned ?_
              unfold Complete
              rw [htake, List.length_append, hlength, hpayload]
              exact ⟨by omega, haccepted, rfl⟩

theorem not_complete_of_unfinished {bytes : Bytes} (h : Unfinished bytes) : ¬ Complete bytes := by
  rintro ⟨hheader, _, hlength⟩
  rcases h with hshort | ⟨_, hmore⟩
  · omega
  · omega

/-- A reader keeps to the limit exactly when it is still in time where it stands, and what the
peer sends is. -/
theorem Reading.onTime_iff {bytes : Bytes} {program stop : SocketProgram Frame} {limit now : Time}
    {soTimeout : Int} {timed : List TimedEvent} (reading : Reading deadline bytes program)
    (run : Runs program (timed.map Prod.fst) stop) (times : Timed soTimeout now timed)
    (settled : Settled stop) :
    OnTime limit now timed stop ↔
      (Unfinished bytes → now < limit) ∧ (Complete bytes → now ≤ limit) ∧
        Punctual limit bytes timed := by
  induction reading generalizing timed now soTimeout with
  | @wait bytes size next hunfinished hdata hend hfailed ih =>
      have hcomplete := not_complete_of_unfinished hunfinished
      -- The clock and the timeout take no time, so the read is issued now.
      match timed, run, times with
      | [], run, _ =>
          cases run
          cases settled
      | [(⟨_, _⟩, _)], .step run, _ =>
          cases run
          cases settled
      | [(⟨_, _⟩, _), (⟨_, _⟩, _)], .step (.step run), ⟨_, hclock, hsame, _⟩ =>
          cases run
          subst hclock hsame
          simp [OnTime, Punctual, SocketOp.isRead, hunfinished, hcomplete]
      | (⟨_, _⟩, _) :: (⟨_, _⟩, _) :: (⟨_, res⟩, after) :: rest, .step (.step (.step run)),
          ⟨_, hclock, hsame, hbefore, hwait, hrest⟩ =>
          subst hclock hsame
          have hlater : OnTime limit after rest stop ↔
              Punctual limit bytes ((⟨.read size, res⟩, after) :: rest) := by
            cases res with
            | data piece => exact ih piece run hrest
            | endOfStream =>
                obtain ⟨error, herror⟩ := hend
                rw [herror] at run
                obtain ⟨hnil, rfl⟩ := runs_throw_iff.mp run
                cases List.map_eq_nil_iff.mp hnil
                exact Iff.rfl
            | failed =>
                obtain ⟨error, herror⟩ := hfailed
                rw [herror] at run
                obtain ⟨hnil, rfl⟩ := runs_throw_iff.mp run
                cases List.map_eq_nil_iff.mp hnil
                exact Iff.rfl
          change _ ↔ _ ∧ _ ∧ Punctual limit bytes ((⟨.read size, res⟩, after) :: rest)
          rw [← hlater]
          simp [OnTime, SocketOp.isRead, hunfinished, hcomplete]
  | returned hcomplete =>
      obtain ⟨hnil, rfl⟩ := runs_ret_iff.mp run
      cases List.map_eq_nil_iff.mp hnil
      have hunfinished : ¬ Unfinished _ := fun h => not_complete_of_unfinished h hcomplete
      simp [OnTime, Punctual, hunfinished, hcomplete]
  | rejected hunfinished hcomplete =>
      obtain ⟨hnil, rfl⟩ := runs_throw_iff.mp run
      cases List.map_eq_nil_iff.mp hnil
      simp [OnTime, Punctual, hunfinished, hcomplete]

/-- The reader keeps to its limit exactly when there is time at all and the peer is punctual. -/
theorem readFrame_onTime_iff {start : Time} {timed : List TimedEvent} {stop : SocketProgram Frame}
    {soTimeout : Int} (htimeout : 0 ≤ timeoutMs)
    (run : Runs (readFrameFrom timeoutMs) (timed.map Prod.fst) stop)
    (times : Timed soTimeout start timed) (settled : Settled stop) :
    OnTime (start + timeoutMs * 1000000) start timed stop ↔
      0 < timeoutMs ∧ Punctual (start + timeoutMs * 1000000) [] timed := by
  obtain ⟨body, hbody, hreading⟩ := reading_readFrame htimeout start
  rw [hbody] at run
  have hunfinished : Unfinished [] := Or.inl (by decide)
  have hcomplete := not_complete_of_unfinished hunfinished
  have hpositive : ∀ time limit : Int, time < time + limit * 1000000 ↔ 0 < limit := by omega
  have hstart := hpositive start timeoutMs
  match timed, run, times with
  | [], run, _ =>
      cases run
      cases settled
  | (⟨_, _⟩, _) :: rest, .step run, ⟨hclock, hsame, hrest⟩ =>
      subst hclock
      rw [hsame]
      change (false = true → _) ∧ OnTime _ _ rest stop ↔ _ ∧ Punctual _ [] rest
      rw [hreading.onTime_iff run hrest settled]
      simp [hunfinished, hcomplete, hstart]

/-- A frame without payload that comes in two pieces. -/
def twoPieces (first second : Time) : List TimedEvent :=
  [(⟨.clock, 0⟩, 0), (⟨.clock, 0⟩, 0), (⟨.setSoTimeout (remainingMs 1000000 0), ()⟩, 0),
    (⟨.read 10, .data ⟨[0x4f, 0x43, 0x41, 0x4d, 2], by decide⟩⟩, first),
    (⟨.clock, first⟩, first), (⟨.setSoTimeout (remainingMs 1000000 first), ()⟩, first),
    (⟨.read 5, .data ⟨[1, 0, 0, 0, 0], by decide⟩⟩, second)]

theorem twoPieces_runs (first second : Time) :
    Runs (readFrameFrom 1) ((twoPieces first second).map Prod.fst) (.ret ⟨1, []⟩) :=
  .step (.step (.step (.step (.step (.step (.step (.here _)))))))

/-- The second piece comes after the limit of one millisecond, and the frame is returned. -/
theorem readFrame_late : ¬ ∀ (timeoutMs soTimeout : Int) (start : Time) (timed : List TimedEvent)
    (stop : SocketProgram Frame), 0 ≤ timeoutMs →
      Runs (readFrameFrom timeoutMs) (timed.map Prod.fst) stop → Timed soTimeout start timed →
        Settled stop → OnTime (start + timeoutMs * 1000000) start timed stop := by
  intro h
  have htimes : Timed 0 0 (twoPieces 900000 1800000) := by
    simp [twoPieces, Timed]
    decide
  have honTime := h 1 0 0 _ _ (by decide) (twoPieces_runs 900000 1800000) htimes trivial
  simp [twoPieces, OnTime] at honTime

/-- Both pieces come in time. -/
theorem readFrame_onTime_iff_early :
    OnTime 1000000 0 (twoPieces 300000 600000) (.ret ⟨1, []⟩) ↔
      0 < (1 : Int) ∧ Punctual 1000000 [] (twoPieces 300000 600000) := by
  have htimes : Timed 0 0 (twoPieces 300000 600000) := by
    simp [twoPieces, Timed]
    decide
  exact readFrame_onTime_iff (by decide) (twoPieces_runs 300000 600000) htimes trivial

end Reading

end OpenCam.Android
