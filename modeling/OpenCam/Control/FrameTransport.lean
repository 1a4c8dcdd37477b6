import OpenCam.Android.Transport
import OpenCam.Control.Integrity
import OpenCam.Linux.Transport

/-!
Frames over a socket that cuts every transfer into pieces as it likes and interrupts the
calls any number of times. While no deadline expires, both implementations carry every frame
whole; and from any stream at all a receiver takes exactly the bytes of the frame that it
returns, or no more than the header that it rejects.
-/

namespace OpenCam.Control

open Octets Interaction

section Streams

/-- A socket during one call: what waits to be read, what has been taken from the caller, how
many interruptions may still come, and when the call started to measure its time. -/
structure Stream where
  unread : Bytes
  sent : Bytes
  interruptions : Nat
  started : Option Time

/-- Bytes are taken from the stream and others handed to it. -/
structure Stream.Moves (state : Stream) (taken given : Bytes) (after : Stream) : Prop where
  unread : state.unread = taken ++ after.unread
  sent : after.sent = state.sent ++ given
  interruptions : after.interruptions ≤ state.interruptions
  started : after.started = state.started

/-- A signal came, or there was nothing to do at the moment. -/
def Stream.Interrupts (state after : Stream) : Prop :=
  state.Moves [] [] after ∧ after.interruptions < state.interruptions

/-- The clock starts a call, and is before the call's deadline from then on. -/
def Stream.Ticks (timeoutMs : Int) (state : Stream) (now : Time) (after : Stream) : Prop :=
  match state.started with
  | none => after = { state with started := some now }
  | some start => now < start + timeoutMs * 1000000 ∧ after = state

/-- The socket under the calls of both peers. It moves any positive part of what it is asked
to move; Java's `write` moves all of it. -/
def fragments (timeoutMs : Int) : World SocketOp SocketOp.Res Stream
  | state, .clock, now, after => state.Ticks timeoutMs now after
  | state, .poll writing _, .ready revents, after =>
      (bif writing then revents.pollout else revents.pollin) = true ∧ after = state
  | state, .poll _ _, .interrupted, after => state.Interrupts after
  | state, .send bytes, .sent count, after =>
      0 < count ∧ count ≤ bytes.length ∧ state.Moves [] (bytes.take count) after
  | state, .send _, .interrupted, after => state.Interrupts after
  | state, .send _, .wouldBlock, after => state.Interrupts after
  | state, .recv _, .received piece, after => state.Moves piece.val [] after
  | state, .recv _, .interrupted, after => state.Interrupts after
  | state, .recv _, .wouldBlock, after => state.Interrupts after
  | state, .setSoTimeout _, _, after => after = state
  | state, .read _, .data piece, after => state.Moves piece.val [] after
  | state, .write bytes, complete, after => complete = true ∧ state.Moves [] bytes after
  | _, _, _, _ => False

/-- A deadline that the clock stays before. -/
def Stream.Before (timeoutMs : Int) (state : Stream) (timeout : Int) (deadline : Time) : Prop :=
  timeout < 0 ∨ timeout = timeoutMs ∧
    ∃ start, state.started = some start ∧ deadline = start + timeoutMs * 1000000

/-- What the transfers make of it: whole blocks, within a budget of bytes and interruptions. -/
def blocks (timeoutMs : Int) (budget : Nat) : World Op Op.Res Stream
  | state, .now, now, after => state.Ticks timeoutMs now after
  | state, .readAll size timeout deadline, some block, after =>
      state.Before timeoutMs timeout deadline ∧ size + state.interruptions ≤ budget ∧
        state.Moves block.val [] after
  | state, .writeAll bytes timeout deadline, complete, after =>
      state.Before timeoutMs timeout deadline ∧ bytes.length + state.interruptions ≤ budget ∧
        complete = true ∧ state.Moves [] bytes after
  | _, _, _, _ => False

variable {timeoutMs timeout : Int} {deadline : Time} {state middle after : Stream}
  {taken given taken' given' : Bytes}

theorem Stream.Moves.refl (state : Stream) : state.Moves [] [] state :=
  ⟨rfl, (List.append_nil _).symm, le_refl _, rfl⟩

theorem Stream.Moves.trans (first : state.Moves taken given middle)
    (second : middle.Moves taken' given' after) :
    state.Moves (taken ++ taken') (given ++ given') after where
  unread := by rw [first.unread, second.unread, List.append_assoc]
  sent := by rw [second.sent, first.sent, List.append_assoc]
  interruptions := second.interruptions.trans first.interruptions
  started := second.started.trans first.started

theorem Stream.Moves.before (h : state.Moves taken given after)
    (hbefore : state.Before timeoutMs timeout deadline) :
    after.Before timeoutMs timeout deadline := by
  unfold Stream.Before
  rw [h.started]
  exact hbefore

theorem Stream.exists_ticks (timeoutMs : Int) (state : Stream) :
    ∃ now after, state.Ticks timeoutMs now after := by
  unfold Stream.Ticks
  cases state.started with
  | none => exact ⟨0, _, rfl⟩
  | some start => exact ⟨start + timeoutMs * 1000000 - 1, state, sub_one_lt _, rfl⟩

/-- The next bytes of a stream can be taken. -/
theorem Stream.exists_moves {rest : Bytes} (h : state.unread = taken ++ rest) :
    ∃ after, state.Moves taken [] after :=
  ⟨{ state with unread := rest }, h, (List.append_nil _).symm, le_refl _, rfl⟩

theorem Stream.exists_sends (state : Stream) (given : Bytes) :
    ∃ after, state.Moves [] given after :=
  ⟨{ state with sent := state.sent ++ given }, rfl, rfl, le_refl _, rfl⟩

/-- A piece that a read takes is the start of what is there. -/
theorem Stream.Moves.split {want rest : Bytes} (h : state.Moves taken [] after)
    (hunread : state.unread = want ++ rest) (hlength : taken.length ≤ want.length) :
    ∃ want', want = taken ++ want' ∧ after.unread = want' ++ rest := by
  have hprefix : taken <+: want := by
    refine List.prefix_of_prefix_length_le (show taken <+: want ++ rest from ?_)
      (List.prefix_append _ _) hlength
    rw [← hunread, h.unread]
    exact List.prefix_append _ _
  obtain ⟨want', rfl⟩ := hprefix
  have hsplit := h.unread.symm.trans hunread
  rw [List.append_assoc] at hsplit
  exact ⟨want', rfl, List.append_cancel_left hsplit⟩

end Streams

section Waiting

variable {timeoutMs timeout : Int} {deadline : Time} {state : Stream}

theorem pollTimeout_completes (h : state.Before timeoutMs timeout deadline) :
    (Linux.pollTimeout timeout deadline).Completes (fragments timeoutMs)
      (fun remaining after => remaining.isSome = true ∧ after = state) state := by
  unfold Linux.pollTimeout
  rcases h with hnegative | ⟨rfl, start, hstart, rfl⟩
  · rw [if_pos hnegative]
    exact ⟨rfl, rfl⟩
  · split
    · exact ⟨rfl, rfl⟩
    · refine Prog.completes_perform_bind (Stream.exists_ticks _ state) fun now after hticks => ?_
      have hclock : now < start + timeout * 1000000 ∧ after = state := by
        change state.Ticks timeout now after at hticks
        unfold Stream.Ticks at hticks
        rw [hstart] at hticks
        exact hticks
      rw [if_neg (not_le.mpr hclock.1)]
      exact ⟨rfl, hclock.2⟩

/-- By induction on the passes, of which every interruption takes one. -/
theorem waitFor_completes (writing : Bool) {passes : Nat} (hpasses : state.interruptions < passes)
    (h : state.Before timeoutMs timeout deadline) :
    (Linux.waitFor writing timeout deadline passes).Completes (fragments timeoutMs)
      (fun ready after => ready = true ∧ state.Moves [] [] after) state := by
  induction passes generalizing state with
  | zero => omega
  | succ passes ih =>
      unfold Linux.waitFor
      refine (pollTimeout_completes h).bind fun remaining after hremaining => ?_
      obtain ⟨hsome, rfl⟩ := hremaining
      obtain ⟨remaining, rfl⟩ := Option.isSome_iff_exists.mp hsome
      refine Prog.completes_perform_bind
        ⟨.ready ⟨true, true, false, false, false⟩, after, by cases writing <;> rfl, rfl⟩
        fun result later hresult => ?_
      cases result with
      | ready revents =>
          obtain ⟨hready, rfl⟩ := hresult
          refine ⟨?_, Stream.Moves.refl _⟩
          rw [Linux.wakes, hready]
          rfl
      | timeout => exact hresult.elim
      | interrupted =>
          obtain ⟨hmoves, hfewer⟩ := hresult
          refine (ih (by omega) (hmoves.before h)).mono fun ready last hlast => ?_
          exact ⟨hlast.1, hmoves.trans hlast.2⟩
      | failed => exact hresult.elim

end Waiting

section Transfers

variable {timeoutMs timeout : Int} {deadline : Time} {state : Stream} {data want rest : Bytes}
  {offset waits passes : Nat}

theorem recv_completes (hunread : state.unread = want ++ rest)
    (hwant : want.length = data.length - offset) (hmore : offset < data.length) :
    (Linux.moveBytes false data offset).Completes (fragments timeoutMs)
      (fun count after =>
        match count with
        | .moved data' offset' => ∃ piece : Bytes, piece ≠ [] ∧ piece.length ≤ want.length ∧
            data' = data.take offset ++ piece ++ data.drop (offset + piece.length) ∧
            offset' = offset + piece.length ∧ state.Moves piece [] after
        | .again => state.Interrupts after
        | .stop => False) state := by
  unfold Linux.moveBytes
  rw [if_neg Bool.false_ne_true]
  have hfirst : state.unread = want.take 1 ++ (want.drop 1 ++ rest) := by
    rw [← List.append_assoc, List.take_append_drop, hunread]
  obtain ⟨next, hnext⟩ := Stream.exists_moves hfirst
  refine Prog.completes_perform_bind
    ⟨.received ⟨want.take 1, List.ne_nil_of_length_pos (by rw [List.length_take]; omega),
      by rw [List.length_take]; omega⟩, next, hnext⟩ fun result after hresult => ?_
  cases result with
  | received piece =>
      have hlength := piece.property.2
      exact ⟨piece.val, piece.property.1, hlength.trans hwant.ge, rfl, rfl, hresult⟩
  | closed => exact hresult.elim
  | interrupted => exact hresult
  | wouldBlock => exact hresult
  | failed => exact hresult.elim

theorem send_completes (hmore : offset < data.length) :
    (Linux.moveBytes true data offset).Completes (fragments timeoutMs)
      (fun count after =>
        match count with
        | .moved data' offset' => data' = data ∧ offset < offset' ∧ offset' ≤ data.length ∧
            state.Moves [] ((data.drop offset).take (offset' - offset)) after
        | .again => state.Interrupts after
        | .stop => False) state := by
  unfold Linux.moveBytes
  rw [if_pos rfl]
  have hlength : (data.drop offset).length = data.length - offset := List.length_drop
  obtain ⟨next, hnext⟩ := state.exists_sends ((data.drop offset).take 1)
  refine Prog.completes_perform_bind ⟨.sent 1, next, by omega, by omega, hnext⟩
    fun result after hresult => ?_
  cases result with
  | sent count =>
      obtain ⟨hpositive, hcount, hmoves⟩ := hresult
      dsimp only
      rw [if_neg (by omega)]
      refine ⟨rfl, by omega, by omega, ?_⟩
      rwa [Nat.add_sub_cancel_left]
  | interrupted => exact hresult
  | wouldBlock => exact hresult
  | failed => exact hresult.elim

/-- The buffer with a piece put at the offset. -/
theorem fill_length {piece : Bytes} (h : offset + piece.length ≤ data.length) :
    (data.take offset ++ piece ++ data.drop (offset + piece.length)).length = data.length := by
  simp only [List.length_append, List.length_take, List.length_drop]
  omega

theorem fill_take {piece : Bytes} (h : offset + piece.length ≤ data.length) :
    (data.take offset ++ piece ++ data.drop (offset + piece.length)).take (offset + piece.length) =
      data.take offset ++ piece :=
  List.take_left' (by rw [List.length_append, List.length_take]; omega)

theorem recv_done (hnot : ¬ offset < data.length) (hwant : offset + want.length = data.length) :
    (true, data) = (true, data.take offset ++ want) ∧ state.Moves want [] state := by
  obtain rfl : want = [] := List.eq_nil_of_length_eq_zero (by omega)
  refine ⟨?_, Stream.Moves.refl state⟩
  rw [List.append_nil, List.take_of_length_le (by omega)]

theorem send_done (hnot : ¬ offset < data.length) :
    (true, data) = (true, data) ∧ state.Moves [] (data.drop offset) state := by
  rw [List.drop_of_length_le (by omega)]
  exact ⟨rfl, Stream.Moves.refl state⟩

/-- By induction on the passes, of which every byte and every interruption takes one. -/
theorem recvLoop_completes (data : Bytes) (offset : Nat) (hunread : state.unread = want ++ rest)
    (hwant : offset + want.length = data.length) (hwaits : state.interruptions < waits)
    (hpasses : want.length + state.interruptions ≤ passes)
    (h : state.Before timeoutMs timeout deadline) :
    (Linux.transferLoop waits false timeout deadline passes data offset).Completes
      (fragments timeoutMs)
      (fun result after => result = (true, data.take offset ++ want) ∧ state.Moves want [] after)
      state := by
  induction passes generalizing data want offset state with
  | zero =>
      have hnot : ¬ offset < data.length := by omega
      unfold Linux.transferLoop
      rw [if_neg hnot]
      exact recv_done hnot hwant
  | succ passes ih =>
      unfold Linux.transferLoop
      by_cases hmore : offset < data.length
      swap
      · rw [if_neg hmore]
        exact recv_done hmore hwant
      rw [if_pos hmore]
      refine (waitFor_completes false hwaits h).bind fun ready middle hready => ?_
      obtain ⟨rfl, hcalms⟩ := hready
      have hmiddle : middle.unread = want ++ rest := hcalms.unread.symm.trans hunread
      have hcalm := hcalms.interruptions
      refine (recv_completes hmiddle (by omega) hmore).bind fun count after hcount => ?_
      cases count with
      | moved data' offset' =>
          obtain ⟨piece, hpiece, hshort, rfl, rfl, hmoves⟩ := hcount
          obtain ⟨want', rfl, hafter⟩ := hmoves.split hmiddle hshort
          have hpositive : 0 < piece.length := List.length_pos_iff.mpr hpiece
          have hfewer := hmoves.interruptions
          rw [List.length_append] at hwant hpasses
          have hfit : offset + piece.length ≤ data.length := by omega
          have hlength := fill_length hfit
          have htake := fill_take hfit
          refine (ih _ _ hafter (by rw [hlength]; omega) (by omega) (by omega)
            (hmoves.before (hcalms.before h))).mono fun result last hlast => ?_
          obtain ⟨hresult, hlast⟩ := hlast
          rw [htake, List.append_assoc] at hresult
          exact ⟨hresult, hcalms.trans (hmoves.trans hlast)⟩
      | again =>
          obtain ⟨hmoves, hfewer⟩ := hcount
          have hsame := hcalms.trans hmoves
          refine (ih _ _ (hsame.unread.symm.trans hunread) hwant (by omega) (by omega)
            (hsame.before h)).mono fun result last hlast => ?_
          exact ⟨hlast.1, hsame.trans hlast.2⟩
      | stop => exact hcount.elim

/-- The same for writing. -/
theorem sendLoop_completes (data : Bytes) {offset : Nat} (hoffset : offset ≤ data.length)
    (hwaits : state.interruptions < waits)
    (hpasses : data.length - offset + state.interruptions ≤ passes)
    (h : state.Before timeoutMs timeout deadline) :
    (Linux.transferLoop waits true timeout deadline passes data offset).Completes
      (fragments timeoutMs)
      (fun result after => result = (true, data) ∧ state.Moves [] (data.drop offset) after)
      state := by
  induction passes generalizing offset state with
  | zero =>
      have hnot : ¬ offset < data.length := by omega
      unfold Linux.transferLoop
      rw [if_neg hnot]
      exact send_done hnot
  | succ passes ih =>
      unfold Linux.transferLoop
      by_cases hmore : offset < data.length
      swap
      · rw [if_neg hmore]
        exact send_done hmore
      rw [if_pos hmore]
      refine (waitFor_completes true hwaits h).bind fun ready middle hready => ?_
      obtain ⟨rfl, hcalms⟩ := hready
      have hcalm := hcalms.interruptions
      refine (send_completes hmore).bind fun count after hcount => ?_
      cases count with
      | moved data' offset' =>
          obtain ⟨rfl, hadvance, hbound, hmoves⟩ := hcount
          have hfewer := hmoves.interruptions
          have hsplit : (data'.drop offset).take (offset' - offset) ++ data'.drop offset' =
              data'.drop offset := by
            have hdrop : data'.drop offset' = (data'.drop offset).drop (offset' - offset) := by
              rw [List.drop_drop, Nat.add_sub_cancel' (by omega)]
            rw [hdrop, List.take_append_drop]
          refine (ih hbound (by omega) (by omega) (hmoves.before (hcalms.before h))).mono
            fun result last hlast => ?_
          have hwhole := hcalms.trans (hmoves.trans hlast.2)
          rw [List.nil_append, hsplit] at hwhole
          exact ⟨hlast.1, hwhole⟩
      | again =>
          obtain ⟨hmoves, hfewer⟩ := hcount
          have hsame := hcalms.trans hmoves
          refine (ih hoffset (by omega) (by omega) (hsame.before h)).mono
            fun result last hlast => ?_
          exact ⟨hlast.1, hsame.trans hlast.2⟩
      | stop => exact hcount.elim

/-- A read of `readExact`, and what it goes on with. -/
def readOnce (size : Nat) (timeout : Int) (deadline : Time) (passes : Nat) (bytes : Bytes)
    (remaining : Int) : SocketProgram (Option Bytes) := do
  call (.setSoTimeout remaining)
  match ← call (.read (size - bytes.length)) with
  | .data piece => Android.readExactLoop size timeout deadline passes (bytes ++ piece.val)
  | .endOfStream => .ret none
  | .failed => .ret none

/-- By induction on the passes, of which every byte takes one at most. -/
theorem readExactLoop_completes (bytes : Bytes) {size : Nat} (hunread : state.unread = want ++ rest)
    (hwant : bytes.length + want.length = size) (hpasses : want.length ≤ passes)
    (h : state.Before timeoutMs timeout deadline) :
    (Android.readExactLoop size timeout deadline passes bytes).Completes (fragments timeoutMs)
      (fun result after => result = some (bytes ++ want) ∧ state.Moves want [] after) state := by
  have hdone : ∀ {bytes want : Bytes} {state : Stream}, bytes.length + want.length = size →
      ¬ bytes.length < size → some bytes = some (bytes ++ want) ∧ state.Moves want [] state := by
    intro bytes want state hwant hnot
    obtain rfl : want = [] := List.eq_nil_of_length_eq_zero (by omega)
    rw [List.append_nil]
    exact ⟨rfl, Stream.Moves.refl state⟩
  induction passes generalizing bytes want state with
  | zero =>
      have hnot : ¬ bytes.length < size := by omega
      unfold Android.readExactLoop
      rw [if_neg hnot]
      exact hdone hwant hnot
  | succ passes ih =>
      unfold Android.readExactLoop
      by_cases hmore : bytes.length < size
      swap
      · rw [if_neg hmore]
        exact hdone hwant hmore
      rw [if_pos hmore]
      have hread : ∀ remaining, Prog.Completes (fragments timeoutMs)
          (fun result after => result = some (bytes ++ want) ∧ state.Moves want [] after)
          (readOnce size timeout deadline passes bytes remaining) state := by
        intro remaining
        unfold readOnce
        refine Prog.completes_perform_bind ⟨(), state, rfl⟩ fun _ same hsame => ?_
        obtain rfl : same = state := hsame
        have hfirst : same.unread = want.take 1 ++ (want.drop 1 ++ rest) := by
          rw [← List.append_assoc, List.take_append_drop, hunread]
        obtain ⟨next, hnext⟩ := Stream.exists_moves hfirst
        refine Prog.completes_perform_bind
          ⟨.data ⟨want.take 1, List.ne_nil_of_length_pos (by rw [List.length_take]; omega),
            by rw [List.length_take]; omega⟩, next, hnext⟩ fun result after hresult => ?_
        cases result with
        | data piece =>
            have hlength := piece.property.2
            have hpositive : 0 < piece.val.length := List.length_pos_iff.mpr piece.property.1
            have hmoves : same.Moves piece.val [] after := hresult
            obtain ⟨want', hsplit, hafter⟩ := hmoves.split hunread (by omega)
            rw [hsplit, List.length_append] at hwant hpasses
            refine (ih _ hafter (by rw [List.length_append]; omega) (by omega)
              (hmoves.before h)).mono fun result last hlast => ?_
            rw [hsplit, ← List.append_assoc]
            exact ⟨hlast.1, hmoves.trans hlast.2⟩
        | endOfStream => exact hresult.elim
        | failed => exact hresult.elim
      rcases h with hnegative | ⟨rfl, start, hstart, rfl⟩
      · rw [if_pos hnegative]
        exact hread 0
      · split
        · exact hread 0
        · refine Prog.completes_perform_bind (Stream.exists_ticks _ state)
            fun now after hticks => ?_
          have hsame : after = state := by
            change state.Ticks timeout now after at hticks
            unfold Stream.Ticks at hticks
            rw [hstart] at hticks
            exact hticks.2
          rw [hsame]
          exact hread _

end Transfers

section Handlers

variable {timeoutMs : Int} {budget passes : Nat}

/-- What the controller's loops make of the socket. -/
theorem linux_handles (hpasses : budget < passes) (state : Stream) (op : Op)
    (hanswer : ∃ res after, blocks timeoutMs budget state op res after) :
    (Linux.socketHandler passes op).Completes (fragments timeoutMs)
      (blocks timeoutMs budget state op) state := by
  obtain ⟨res, after, hanswer⟩ := hanswer
  cases op with
  | now => exact ⟨⟨res, after, hanswer⟩, fun _ _ hres => hres⟩
  | readAll size timeout deadline =>
      cases res with
      | none => exact hanswer.elim
      | some block =>
          obtain ⟨hbefore, hbudget, hmoves⟩ := hanswer
          have hlength : block.val.length = size := block.property
          refine (recvLoop_completes (List.replicate size 0) 0 hmoves.unread
            (by rw [List.length_replicate, Nat.zero_add, hlength]) (by omega) (by omega)
            hbefore).bind fun result last hlast => ?_
          obtain ⟨rfl, hlast⟩ := hlast
          rw [List.take_zero, List.nil_append]
          dsimp only
          rw [dif_pos hlength]
          exact ⟨hbefore, hbudget, hlast⟩
  | writeAll bytes timeout deadline =>
      obtain ⟨hbefore, hbudget, -, -⟩ := hanswer
      refine (sendLoop_completes bytes (Nat.zero_le _) (by omega) (by omega)
        hbefore).bind fun result last hlast => ?_
      obtain ⟨rfl, hlast⟩ := hlast
      exact ⟨hbefore, hbudget, rfl, hlast⟩
  | _ => exact hanswer.elim

/-- What the phone's streams make of it. -/
theorem android_handles (state : Stream) (op : Op)
    (hanswer : ∃ res after, blocks timeoutMs budget state op res after) :
    (Android.socketHandler op).Completes (fragments timeoutMs)
      (blocks timeoutMs budget state op) state := by
  obtain ⟨res, after, hanswer⟩ := hanswer
  cases op with
  | now => exact ⟨⟨res, after, hanswer⟩, fun _ _ hres => hres⟩
  | readAll size timeout deadline =>
      cases res with
      | none => exact hanswer.elim
      | some block =>
          obtain ⟨hbefore, hbudget, hmoves⟩ := hanswer
          have hlength : block.val.length = size := block.property
          refine (readExactLoop_completes [] hmoves.unread
            (by rw [List.length_nil, Nat.zero_add, hlength]) hlength.le
            hbefore).bind fun result last hlast => ?_
          obtain ⟨rfl, hlast⟩ := hlast
          rw [List.nil_append]
          dsimp only
          rw [dif_pos hlength]
          exact ⟨hbefore, hbudget, hlast⟩
  | writeAll bytes timeout deadline =>
      obtain ⟨hbefore, hbudget, -, -⟩ := hanswer
      obtain ⟨next, hnext⟩ := state.exists_sends bytes
      exact ⟨⟨true, next, rfl, hnext⟩, fun _ _ hres => ⟨hbefore, hbudget, hres⟩⟩
  | _ => exact hanswer.elim

end Handlers

section Blocks

variable {timeoutMs timeout : Int} {deadline : Time} {budget : Nat} {state : Stream}
  {bytes want rest : Bytes}

theorem writeAll_completes (h : state.Before timeoutMs timeout deadline)
    (hbudget : bytes.length + state.interruptions ≤ budget) :
    (ask (.writeAll bytes timeout deadline)).Completes (blocks timeoutMs budget)
      (fun complete after => complete = true ∧ state.Moves [] bytes after) state := by
  obtain ⟨next, hnext⟩ := state.exists_sends bytes
  exact ⟨⟨true, next, h, hbudget, rfl, hnext⟩, fun _ _ hres => hres.2.2⟩

theorem readAll_completes {size : Nat} (h : state.Before timeoutMs timeout deadline)
    (hbudget : size + state.interruptions ≤ budget) (hunread : state.unread = want ++ rest)
    (hsize : want.length = size) :
    (ask (.readAll size timeout deadline)).Completes (blocks timeoutMs budget)
      (fun result after => result = some ⟨want, hsize⟩ ∧ state.Moves want [] after) state := by
  obtain ⟨next, hnext⟩ := Stream.exists_moves hunread
  refine ⟨⟨some ⟨want, hsize⟩, next, h, hbudget, hnext⟩, fun res after hres => ?_⟩
  cases res with
  | none => exact hres.elim
  | some block =>
      obtain ⟨-, -, hmoves⟩ := hres
      have hlength : block.val.length = want.length := block.property.trans hsize.symm
      have hsame : block.val = want :=
        (List.append_inj (hmoves.unread.symm.trans hunread) hlength).1
      rw [hsame] at hmoves
      exact ⟨congrArg some (Subtype.ext hsame), hmoves⟩

end Blocks

section Calls

variable {timeoutMs : Int} {budget : Nat} {state : Stream} {frame : Frame} {rest : Bytes}

/-- A call begins to measure its time. -/
def Stream.begin (state : Stream) : Stream := { state with started := none }

/-- The call knows its deadline. -/
def Stream.Knows (timeoutMs : Int) (state : Stream) (deadline : Time) (after : Stream) : Prop :=
  after.Before timeoutMs timeoutMs deadline ∧ after.unread = state.unread ∧
    after.sent = state.sent ∧ after.interruptions = state.interruptions

theorem clock_completes :
    (ask .now).Completes (blocks timeoutMs budget)
      (fun now after => state.Knows timeoutMs (now + timeoutMs * 1000000) after) state.begin := by
  refine ⟨Stream.exists_ticks timeoutMs state.begin, fun now after hticks => ?_⟩
  obtain rfl : after = { state.begin with started := some now } := hticks
  exact ⟨Or.inr ⟨rfl, now, rfl, rfl⟩, rfl, rfl, rfl⟩

theorem linux_deadline_completes :
    (Linux.deadlineFor timeoutMs).Completes (blocks timeoutMs budget)
      (fun deadline after => state.Knows timeoutMs deadline after) state.begin := by
  unfold Linux.deadlineFor
  split
  · next hnegative => exact ⟨Or.inl hnegative, rfl, rfl, rfl⟩
  · exact clock_completes.bind fun now after hafter => hafter

theorem android_deadline_completes :
    (Android.readDeadline timeoutMs).Completes (blocks timeoutMs budget)
      (fun deadline after => state.Knows timeoutMs deadline after) state.begin := by
  unfold Android.readDeadline
  split
  · next hnegative => exact ⟨Or.inl hnegative, rfl, rfl, rfl⟩
  · exact clock_completes.bind fun now after hafter => hafter

theorem linux_sendFrame_completes (hsize : frame.payload.length ≤ 65536)
    (hbudget : 65536 + state.interruptions ≤ budget) :
    (Linux.sendFrame frame.type frame.payload timeoutMs).Completes (blocks timeoutMs budget)
      (fun sent after => sent = true ∧ after.unread = state.unread ∧
        after.sent = state.sent ++ encodeFrame frame ∧
        after.interruptions ≤ state.interruptions) state.begin := by
  unfold Linux.sendFrame
  rw [if_neg (by simp only [Linux.MAX_PAYLOAD]; omega)]
  dsimp only
  rw [Linux.makeHeader_eq]
  refine linux_deadline_completes.bind fun deadline start hstart => ?_
  obtain ⟨hbefore, hunread, hsent, hinterruptions⟩ := hstart
  refine (writeAll_completes hbefore (by rw [encodeHeader_length]; omega)).bind
    fun sent middle hmiddle => ?_
  obtain ⟨rfl, hheader⟩ := hmiddle
  have hfewer := hheader.interruptions
  dsimp only
  split
  · next hempty =>
      refine ⟨rfl, hheader.unread.symm.trans hunread, ?_, by omega⟩
      have hnil := List.isEmpty_iff.mp hempty
      rw [hheader.sent, hsent, encodeFrame, hnil, List.append_nil]
  · refine (writeAll_completes (hheader.before hbefore) (by omega)).mono
      fun sent after hafter => ?_
    have hwhole := hheader.trans hafter.2
    have hfewest := hwhole.interruptions
    refine ⟨hafter.1, hwhole.unread.symm.trans hunread, ?_, by omega⟩
    rw [hwhole.sent, hsent]
    rfl

theorem linux_receivePayload_completes {header : Block Linux.HEADER_SIZE} {deadline : Time}
    (hheader : header.val = encodeHeader frame.type frame.payload.length)
    (hsize : frame.payload.length ≤ 65536) (h : state.Before timeoutMs timeoutMs deadline)
    (hbudget : 65536 + state.interruptions ≤ budget)
    (hunread : state.unread = frame.payload ++ rest) :
    (Linux.receivePayload header timeoutMs deadline).Completes (blocks timeoutMs budget)
      (fun result after => result = some frame ∧ state.Moves frame.payload [] after) state := by
  obtain ⟨type, payload⟩ := frame
  have hsmall : payload.length ≤ 65536 := hsize
  obtain ⟨hmagic, hversion, htype, hlength⟩ := encodeHeader_fields type payload.length
  have hcount : (Linux.headerSize header).toNat = payload.length := by
    rw [Linux.headerSize_eq, hheader, hlength, beNat_beBytes (by omega)]
  unfold Linux.receivePayload
  rw [hheader, if_neg (by simpa using ⟨hmagic, hversion⟩)]
  dsimp only
  rw [if_neg (by rw [hcount]; simp only [Linux.MAX_PAYLOAD]; omega), htype]
  split
  · next hzero =>
      have hnil : payload = [] := by
        rw [← List.length_eq_zero_iff, ← hcount, hzero]
        rfl
      rw [hnil]
      exact ⟨rfl, Stream.Moves.refl state⟩
  · refine (readAll_completes h (by rw [hcount]; omega) hunread hcount.symm).bind
      fun result after hafter => ?_
    obtain ⟨rfl, hmoves⟩ := hafter
    exact ⟨rfl, hmoves⟩

theorem linux_receiveFrame_completes (hsize : frame.payload.length ≤ 65536)
    (hbudget : 65536 + state.interruptions ≤ budget)
    (hunread : state.unread = encodeFrame frame ++ rest) :
    (Linux.receiveFrame timeoutMs).Completes (blocks timeoutMs budget)
      (fun result after => result = some frame ∧ after.unread = rest ∧
        after.sent = state.sent ∧ after.interruptions ≤ state.interruptions) state.begin := by
  unfold Linux.receiveFrame
  refine linux_deadline_completes.bind fun deadline start hstart => ?_
  obtain ⟨hbefore, hsame, hsent, hinterruptions⟩ := hstart
  rw [encodeFrame, List.append_assoc] at hunread
  refine (readAll_completes hbefore (by omega) (hsame.trans hunread)
    (encodeHeader_length _ _)).bind fun result middle hmiddle => ?_
  obtain ⟨rfl, hheader⟩ := hmiddle
  have hfewer := hheader.interruptions
  have hrest : middle.unread = frame.payload ++ rest :=
    List.append_cancel_left (hheader.unread.symm.trans (hsame.trans hunread))
  refine (linux_receivePayload_completes rfl hsize (hheader.before hbefore) (by omega)
    hrest).mono fun result after hafter => ?_
  have hwhole := hheader.trans hafter.2
  have hfewest := hwhole.interruptions
  refine ⟨hafter.1, List.append_cancel_left (hafter.2.unread.symm.trans hrest), ?_, by omega⟩
  rw [hwhole.sent, hsent, List.append_nil, List.append_nil]

theorem android_outputWrite_completes {bytes : Bytes}
    (hbudget : bytes.length + state.interruptions ≤ budget) :
    (Android.outputWrite bytes).Completes (blocks timeoutMs budget)
      (fun _ after => state.Moves [] bytes after) state := by
  refine (writeAll_completes (Or.inl (by decide)) hbudget).bind fun complete after hafter => ?_
  obtain ⟨rfl, hmoves⟩ := hafter
  exact hmoves

theorem android_writeFrame_completes (hsize : frame.payload.length ≤ 65536)
    (hbudget : 65536 + state.interruptions ≤ budget) :
    (Android.writeFrame frame.type.toNat frame.payload).Completes (blocks timeoutMs budget)
      (fun _ after => after.unread = state.unread ∧
        after.sent = state.sent ++ encodeFrame frame ∧
        after.interruptions ≤ state.interruptions) state.begin := by
  unfold Android.writeFrame Android.require
  rw [Android.makeHeader_eq, Android.toByte_natCast,
    if_pos (decide_eq_true (by rw [Android.MAX_PAYLOAD]; omega)), Prog.ret_bind]
  have hfresh : state.begin.interruptions = state.interruptions := rfl
  refine (android_outputWrite_completes (by rw [encodeHeader_length]; omega)).bind
    fun _ middle hheader => ?_
  have hfewer := hheader.interruptions
  refine (android_outputWrite_completes (by omega)).mono fun _ after hbody => ?_
  have hwhole := hheader.trans hbody
  have hfewest := hwhole.interruptions
  refine ⟨hwhole.unread.symm, ?_, by omega⟩
  rw [hwhole.sent]
  rfl

theorem android_readExact_completes {size : Nat} {deadline : Time} {want : Bytes}
    (h : state.Before timeoutMs timeoutMs deadline)
    (hbudget : size + state.interruptions ≤ budget) (hunread : state.unread = want ++ rest)
    (hsize : want.length = size) :
    (Android.readExact size timeoutMs deadline).Completes (blocks timeoutMs budget)
      (fun bytes after => bytes = want ∧ state.Moves want [] after) state := by
  unfold Android.readExact
  split
  · next hzero =>
      obtain rfl : want = [] := List.eq_nil_of_length_eq_zero (hsize.trans hzero)
      exact ⟨rfl, Stream.Moves.refl state⟩
  · refine (readAll_completes h hbudget hunread hsize).bind fun result after hafter => ?_
    obtain ⟨rfl, hmoves⟩ := hafter
    exact ⟨rfl, hmoves⟩

theorem android_readFrame_completes (hsize : frame.payload.length ≤ 65536)
    (hbudget : 65536 + state.interruptions ≤ budget)
    (hunread : state.unread = encodeFrame frame ++ rest) :
    (Android.readFrame timeoutMs).Completes (blocks timeoutMs budget)
      (fun result after => result = ⟨frame.type.toNat, frame.payload⟩ ∧ after.unread = rest ∧
        after.sent = state.sent ∧ after.interruptions ≤ state.interruptions) state.begin := by
  obtain ⟨type, payload⟩ := frame
  have hsmall : payload.length ≤ 65536 := hsize
  obtain ⟨hmagic, hversion, htype, hlength⟩ := encodeHeader_fields type payload.length
  have hcount : Android.getInt ((encodeHeader type payload.length).drop 6) = payload.length := by
    have hvalue : beNat (beBytes 4 payload.length) = payload.length := beNat_beBytes (by omega)
    rw [hlength, Android.getInt, Android.wrapInt, hvalue, Int.bmod_def]
    split <;> omega
  unfold Android.readFrame
  refine android_deadline_completes.bind fun deadline start hstart => ?_
  obtain ⟨hbefore, hsame, hsent, hinterruptions⟩ := hstart
  rw [encodeFrame, List.append_assoc] at hunread
  refine (android_readExact_completes hbefore (by omega)
    (hsame.trans hunread) (encodeHeader_length _ _)).bind fun result middle hmiddle => ?_
  obtain ⟨rfl, hheader⟩ := hmiddle
  have hfewer := hheader.interruptions
  have hrest : middle.unread = payload ++ rest :=
    List.append_cancel_left (hheader.unread.symm.trans (hsame.trans hunread))
  dsimp only
  rw [if_neg (by rw [hmagic, hversion]; decide), hcount,
    if_neg (by rw [Android.MAX_PAYLOAD]; omega), htype, Android.and_0xff]
  refine (android_readExact_completes (hheader.before hbefore)
    (by rw [Int.toNat_natCast]; omega) hrest (Int.toNat_natCast _).symm).bind
    fun result after hafter => ?_
  obtain ⟨rfl, hmoves⟩ := hafter
  have hwhole := hheader.trans hmoves
  have hfewest := hwhole.interruptions
  refine ⟨rfl, List.append_cancel_left (hmoves.unread.symm.trans hrest), ?_, by omega⟩
  rw [hwhole.sent, hsent, List.append_nil, List.append_nil]

end Calls

section Successive

/-- What a receiver hands to its caller; on the phone the type is an `Int`. -/
def Frame.received (frame : Frame) : Android.Frame := ⟨frame.type.toNat, frame.payload⟩

/-- A call that sends a frame down to its socket. The phone's ignores the timeout. -/
def Implementation.send : Implementation → Nat → Frame → Int → SocketProgram Bool
  | .linux, passes, frame, timeoutMs =>
      Linux.sendFrameTo passes frame.type frame.payload timeoutMs
  | .android, _, frame, _ => do
      (Android.writeFrame frame.type.toNat frame.payload).refine Android.socketHandler
      .ret true

/-- A call that receives a frame. -/
def Implementation.receive : Implementation → Nat → Int → SocketProgram (Option Android.Frame)
  | .linux, passes, timeoutMs => do
      let frame ← Linux.receiveFrameFrom passes timeoutMs
      .ret (frame.map Frame.received)
  | .android, _, timeoutMs => do
      let frame ← Android.readFrameFrom timeoutMs
      .ret (some frame)

/-- A call and the time it has. -/
structure SocketCall (α : Type) where
  program : SocketProgram α
  timeoutMs : Int

/-- Calls one after another on one socket, and what they returned. -/
inductive Successive {α : Type} : Stream → List (SocketCall α) → List α → Stream → Prop
  | done (state : Stream) : Successive state [] [] state
  | next {state middle after : Stream} {call : SocketCall α} {result : α}
      {calls : List (SocketCall α)} {results : List α} {trace : List SocketEvent}
      (run : Runs call.program trace (.ret result))
      (path : Lives (fragments call.timeoutMs) state.begin trace middle)
      (rest : Successive middle calls results after) :
      Successive state (call :: calls) (result :: results) after

def sends (sender : Implementation) (passes : Nat) (frames : List (Frame × Int)) :
    List (SocketCall Bool) :=
  frames.map fun (frame, timeoutMs) => ⟨sender.send passes frame timeoutMs, timeoutMs⟩

def receives (receiver : Implementation) (passes : Nat) (timeouts : List Int) :
    List (SocketCall (Option Android.Frame)) :=
  timeouts.map fun timeoutMs => ⟨receiver.receive passes timeoutMs, timeoutMs⟩

/-- The bytes of several frames. -/
def encodeFrames (frames : List Frame) : Bytes := frames.flatMap encodeFrame

variable {sender receiver : Implementation} {passes : Nat} {timeoutMs : Int} {state after : Stream}
  {frame : Frame} {rest : Bytes}

theorem send_frame_completes (sender : Implementation) (hsize : frame.payload.length ≤ 65536)
    (hpasses : 65536 + state.interruptions < passes) :
    (sender.send passes frame timeoutMs).Completes (fragments timeoutMs)
      (fun sent after => sent = true ∧ after.unread = state.unread ∧
        after.sent = state.sent ++ encodeFrame frame ∧
        after.interruptions ≤ state.interruptions) state.begin := by
  cases sender with
  | linux =>
      exact Prog.Completes.refine _ (linux_sendFrame_completes hsize (le_refl _))
        (linux_handles hpasses)
  | android =>
      refine (Prog.Completes.refine _ (android_writeFrame_completes hsize (le_refl _))
        android_handles).bind fun _ after hafter => ?_
      exact ⟨rfl, hafter⟩

theorem receive_frame_completes (receiver : Implementation) (hsize : frame.payload.length ≤ 65536)
    (hpasses : 65536 + state.interruptions < passes)
    (hunread : state.unread = encodeFrame frame ++ rest) :
    (receiver.receive passes timeoutMs).Completes (fragments timeoutMs)
      (fun result after => result = some frame.received ∧ after.unread = rest ∧
        after.sent = state.sent ∧ after.interruptions ≤ state.interruptions) state.begin := by
  cases receiver with
  | linux =>
      refine (Prog.Completes.refine _ (linux_receiveFrame_completes hsize (le_refl _) hunread)
        (linux_handles hpasses)).bind fun result after hafter => ?_
      obtain ⟨rfl, hafter⟩ := hafter
      exact ⟨rfl, hafter⟩
  | android =>
      refine (Prog.Completes.refine _ (android_readFrame_completes hsize (le_refl _) hunread)
        android_handles).bind fun result after hafter => ?_
      obtain ⟨rfl, hafter⟩ := hafter
      exact ⟨rfl, hafter⟩

/-- By induction on the frames. -/
theorem Successive.sent {frames : List (Frame × Int)} {results : List Bool}
    (h : Successive state (sends sender passes frames) results after)
    (hsizes : ∀ entry ∈ frames, entry.1.payload.length ≤ 65536)
    (hpasses : 65536 + state.interruptions < passes) :
    results = frames.map (fun _ => true) ∧ after.unread = state.unread ∧
      after.sent = state.sent ++ encodeFrames (frames.map Prod.fst) := by
  induction frames generalizing state results with
  | nil =>
      cases h
      exact ⟨rfl, rfl, (List.append_nil _).symm⟩
  | cons entry frames ih =>
      obtain ⟨hsize, hsizes⟩ := List.forall_mem_cons.mp hsizes
      cases h with
      | next run path rest =>
          obtain ⟨rfl, hunread, hsent, hfewer⟩ :=
            (send_frame_completes sender hsize hpasses).returned run path
          obtain ⟨hresults, hsame, hlater⟩ := ih rest hsizes (by omega)
          refine ⟨congrArg (true :: ·) hresults, hsame.trans hunread, ?_⟩
          rw [hlater, hsent, List.append_assoc]
          rfl

/-- By induction on the frames. -/
theorem Successive.received {frames : List Frame} {timeouts : List Int}
    {results : List (Option Android.Frame)}
    (h : Successive state (receives receiver passes timeouts) results after)
    (hlength : timeouts.length = frames.length)
    (hsizes : ∀ frame ∈ frames, frame.payload.length ≤ 65536)
    (hpasses : 65536 + state.interruptions < passes)
    (hunread : state.unread = encodeFrames frames ++ rest) :
    results = frames.map (fun frame => some frame.received) ∧ after.unread = rest := by
  induction frames generalizing state results timeouts with
  | nil =>
      obtain rfl := List.eq_nil_of_length_eq_zero hlength
      cases h
      exact ⟨rfl, hunread⟩
  | cons frame frames ih =>
      obtain ⟨hsize, hsizes⟩ := List.forall_mem_cons.mp hsizes
      cases timeouts with
      | nil => cases hlength
      | cons timeoutMs timeouts =>
          cases h with
          | next run path later =>
              rw [encodeFrames, List.flatMap_cons, List.append_assoc] at hunread
              obtain ⟨rfl, hmiddle, -, hfewer⟩ :=
                (receive_frame_completes receiver hsize hpasses hunread).returned run path
              obtain ⟨hresults, hafter⟩ :=
                ih later (Nat.succ.inj hlength) hsizes (by omega) hmiddle
              exact ⟨congrArg (_ :: ·) hresults, hafter⟩

end Successive

section Consumption

/-- What an event takes from the stream. -/
def SocketEvent.taken : SocketEvent → Bytes
  | ⟨.recv _, .received piece⟩ => piece.val
  | ⟨.read _, .data piece⟩ => piece.val
  | _ => []

def consumed (trace : List SocketEvent) : Bytes := trace.flatMap SocketEvent.taken

/-- Any socket at all, with the bytes that were taken from it. -/
def taking : World SocketOp SocketOp.Res Bytes :=
  fun before op res after => after = before ++ SocketEvent.taken ⟨op, res⟩

/-- What the transfers take. One that fails has taken less than it was to take. -/
def reading : World Op Op.Res Bytes
  | before, .now, _, after => after = before
  | before, .readAll _ _ _, some block, after => after = before ++ block.val
  | before, .readAll size _ _, none, after =>
      ∃ part : Bytes, part.length < size ∧ after = before ++ part
  | _, _, _, _ => False

theorem lives_taking (before : Bytes) (trace : List SocketEvent) :
    Lives taking before trace (before ++ consumed trace) := by
  induction trace generalizing before with
  | nil =>
      rw [consumed, List.flatMap_nil, List.append_nil]
      exact .here before
  | cons event trace ih =>
      rw [consumed, List.flatMap_cons, ← List.append_assoc]
      exact .step rfl (ih _)

/-- Magic, version and a length within the limit. -/
def HeaderAccepted (header : Bytes) : Prop :=
  header.take 4 = ascii "OCAM" ∧ header.getD 4 0 = 2 ∧ beNat (header.drop 6) ≤ 65536

/-- These bytes begin with ten that are not the header of a frame. -/
def Rejected (bytes : Bytes) : Prop := 10 ≤ bytes.length ∧ ¬ HeaderAccepted (bytes.take 10)

/-- An operation that takes nothing beyond a rejected header. -/
def Cautious (before : Bytes) : Op → Prop
  | .now => ¬ Rejected before
  | .readAll size _ _ => ∀ part : Bytes, part.length < size → ¬ Rejected (before ++ part)
  | _ => False

variable {before data part : Bytes} {timeout : Int} {deadline : Time} {offset passes waits : Nat}

theorem not_rejected_append {header : Bytes} (hlength : header.length = 10)
    (hheader : HeaderAccepted header) (part : Bytes) : ¬ Rejected (header ++ part) := by
  rintro ⟨-, hrejected⟩
  rw [← hlength, List.take_left] at hrejected
  exact hrejected hheader

theorem pollTimeout_keeps (h : ¬ Rejected before) :
    (Linux.pollTimeout timeout deadline).Keeps taking (fun before _ => ¬ Rejected before)
      (Prog.Returned fun _ after => after = before) (fun before => ¬ Rejected before) before := by
  unfold Linux.pollTimeout
  split
  · exact rfl
  · refine ⟨h, fun now after hafter => ?_⟩
    obtain rfl : after = before := hafter.trans (List.append_nil _)
    change Prog.Keeps taking _ _ _ (if now ≥ deadline then .ret none else .ret _) after
    split <;> exact rfl

theorem waitFor_keeps (h : ¬ Rejected before) (writing : Bool) :
    (Linux.waitFor writing timeout deadline passes).Keeps taking (fun before _ => ¬ Rejected before)
      (Prog.Returned fun _ after => after = before) (fun before => ¬ Rejected before) before := by
  induction passes with
  | zero => exact h
  | succ passes ih =>
      unfold Linux.waitFor
      refine (pollTimeout_keeps h).bind (fun _ _ hres => hres.elim) fun remaining after hafter => ?_
      obtain rfl : after = before := hafter
      cases remaining with
      | none => exact rfl
      | some remaining =>
          refine ⟨h, fun result last hlast => ?_⟩
          obtain rfl : last = after := hlast.trans (List.append_nil _)
          cases result with
          | ready revents => exact rfl
          | timeout => exact rfl
          | interrupted => exact ih
          | failed => exact rfl

/-- A transfer takes the whole of its buffer, or less where it fails. -/
theorem recvLoop_keeps (hoffset : offset ≤ data.length)
    (h : ∀ part : Bytes, part.length < data.length → ¬ Rejected (before ++ part)) :
    (Linux.transferLoop waits false timeout deadline passes data offset).Keeps taking
      (fun before _ => ¬ Rejected before)
      (Prog.Returned fun result after =>
        match result with
        | (true, full) => full.length = data.length ∧ after = before ++ full
        | (false, _) => ∃ part : Bytes, part.length < data.length ∧ after = before ++ part)
      (fun before => ¬ Rejected before) (before ++ data.take offset) := by
  induction passes generalizing data offset with
  | zero =>
      unfold Linux.transferLoop
      split
      · next hmore => exact h _ (by rw [List.length_take]; omega)
      · next hdone =>
          refine ⟨rfl, ?_⟩
          rw [List.take_of_length_le (by omega)]
  | succ passes ih =>
      unfold Linux.transferLoop
      split
      swap
      · next hdone =>
          refine ⟨rfl, ?_⟩
          rw [List.take_of_length_le (by omega)]
      next hmore =>
      have htaken : (data.take offset).length < data.length := by
        rw [List.length_take]
        omega
      refine (waitFor_keeps (h _ htaken) false).bind (fun _ _ hres => hres.elim)
        fun ready after hafter => ?_
      obtain rfl := hafter
      cases ready with
      | false => exact ⟨_, htaken, rfl⟩
      | true =>
          unfold Linux.moveBytes
          rw [if_neg Bool.false_ne_true]
          refine ⟨h _ htaken, fun result last hlast => ?_⟩
          cases result with
          | received piece =>
              have hpiece := piece.property.2
              have hfit : offset + piece.val.length ≤ data.length := by omega
              have hlength := fill_length hfit
              have hlast : last = before ++ (data.take offset ++ piece.val ++
                  data.drop (offset + piece.val.length)).take (offset + piece.val.length) := by
                rw [fill_take hfit, ← List.append_assoc]
                exact hlast
              rw [hlast]
              have hnext := @ih (data.take offset ++ piece.val ++
                data.drop (offset + piece.val.length)) (offset + piece.val.length)
                (by rw [hlength]; omega) (by rw [hlength]; exact h)
              rw [hlength] at hnext
              exact hnext
          | closed =>
              obtain rfl : last = _ := hlast.trans (List.append_nil _)
              exact ⟨_, htaken, rfl⟩
          | interrupted =>
              obtain rfl : last = _ := hlast.trans (List.append_nil _)
              exact ih hoffset h
          | wouldBlock =>
              obtain rfl : last = _ := hlast.trans (List.append_nil _)
              exact ih hoffset h
          | failed =>
              obtain rfl : last = _ := hlast.trans (List.append_nil _)
              exact ⟨_, htaken, rfl⟩

/-- What `readExact` makes of its socket: all that it was to read, or a part of it. -/
def TakesExactly (before : Bytes) (size : Nat) : Option Bytes → Bytes → Prop
  | some full, after => full.length = size ∧ after = before ++ full
  | none, after => ∃ part : Bytes, part.length < size ∧ after = before ++ part

/-- The same for the loop of `readExact`. -/
theorem readExactLoop_keeps {bytes : Bytes} {size : Nat} (hpasses : size ≤ bytes.length + passes)
    (hbytes : bytes.length ≤ size)
    (h : ∀ part : Bytes, part.length < size → ¬ Rejected (before ++ part)) :
    (Android.readExactLoop size timeout deadline passes bytes).Keeps taking
      (fun before _ => ¬ Rejected before)
      (Prog.Returned (TakesExactly before size)) (fun before => ¬ Rejected before)
      (before ++ bytes) := by
  induction passes generalizing bytes with
  | zero =>
      unfold Android.readExactLoop
      rw [if_neg (by omega)]
      exact ⟨by omega, rfl⟩
  | succ passes ih =>
      unfold Android.readExactLoop
      by_cases hmore : bytes.length < size
      swap
      · rw [if_neg hmore]
        exact ⟨by omega, rfl⟩
      rw [if_pos hmore]
      have hread : ∀ remaining, Prog.Keeps taking (fun before _ => ¬ Rejected before)
          (Prog.Returned (TakesExactly before size)) (fun before => ¬ Rejected before)
          (readOnce size timeout deadline passes bytes remaining) (before ++ bytes) := by
        intro remaining
        unfold readOnce
        refine ⟨h _ hmore, fun _ same hsame => ?_⟩
        obtain rfl : same = _ := hsame.trans (List.append_nil _)
        refine ⟨h _ hmore, fun result after hafter => ?_⟩
        cases result with
        | data piece =>
            have hlength := piece.property.2
            have hpositive : 0 < piece.val.length := List.length_pos_iff.mpr piece.property.1
            have hnext : after = before ++ (bytes ++ piece.val) := by
              rw [← List.append_assoc]
              exact hafter
            rw [hnext]
            exact ih (by rw [List.length_append]; omega) (by rw [List.length_append]; omega)
        | endOfStream =>
            obtain rfl : after = _ := hafter.trans (List.append_nil _)
            exact ⟨bytes, hmore, rfl⟩
        | failed =>
            obtain rfl : after = _ := hafter.trans (List.append_nil _)
            exact ⟨bytes, hmore, rfl⟩
      split
      · exact hread 0
      · refine ⟨h _ hmore, fun now same hsame => ?_⟩
        obtain rfl : same = _ := hsame.trans (List.append_nil _)
        exact hread _

theorem linux_takes (before : Bytes) (op : Op) (h : Cautious before op) :
    (Linux.socketHandler passes op).Keeps taking (fun before _ => ¬ Rejected before)
      (Prog.Returned (reading before op)) (fun before => ¬ Rejected before) before := by
  cases op with
  | now => exact ⟨h, fun now after hafter => hafter.trans (List.append_nil _)⟩
  | readAll size timeout deadline =>
      have hbuffer : (List.replicate size (0 : UInt8)).length = size := List.length_replicate
      have hloop := @recvLoop_keeps before (List.replicate size 0) timeout deadline 0 passes passes
        (Nat.zero_le _) (by rw [hbuffer]; exact h)
      rw [List.take_zero, List.append_nil, hbuffer] at hloop
      refine hloop.bind (fun _ _ hres => hres.elim) fun result after hafter => ?_
      obtain ⟨complete, full⟩ := result
      cases complete with
      | false => exact hafter
      | true =>
          obtain ⟨hlength, hafter⟩ := hafter
          dsimp only
          rw [dif_pos hlength]
          exact hafter
  | _ => exact h.elim

theorem android_takes (before : Bytes) (op : Op) (h : Cautious before op) :
    (Android.socketHandler op).Keeps taking (fun before _ => ¬ Rejected before)
      (Prog.Returned (reading before op)) (fun before => ¬ Rejected before) before := by
  cases op with
  | now => exact ⟨h, fun now after hafter => hafter.trans (List.append_nil _)⟩
  | readAll size timeout deadline =>
      have hloop := @readExactLoop_keeps before timeout deadline size [] size
        (by simp) (Nat.zero_le _) h
      rw [List.append_nil] at hloop
      refine hloop.bind (fun _ _ hres => hres.elim) fun result after hafter => ?_
      cases result with
      | none => exact hafter
      | some full =>
          obtain ⟨hlength, hafter⟩ := hafter
          dsimp only
          rw [dif_pos hlength]
          exact hafter
  | _ => exact h.elim

/-- How a receiving call may end: with the frame that it has taken, or in failure, and then
with no more than its header where that is rejected. -/
def Ends {α : Type} (frame : α → Option Android.Frame) : Except String α → Bytes → Prop
  | .ok value, after =>
      match frame value with
      | some result => (∃ frame, result = frame.received ∧ after = encodeFrame frame) ∧
          ¬ Rejected after
      | none => Rejected after → after.length = 10
  | .error _, after => Rejected after → after.length = 10

theorem ends_failed {α : Type} {frame : α → Option Android.Frame} {value : α} {after : Bytes}
    (hvalue : frame value = none) (h : ¬ Rejected after) : Ends frame (.ok value) after := by
  simp only [Ends, hvalue]
  exact fun hrejected => absurd hrejected h

theorem linux_receivePayload_keeps {header : Block Linux.HEADER_SIZE} {timeoutMs : Int} :
    (Linux.receivePayload header timeoutMs deadline).Keeps reading Cautious
      (Ends (Option.map Frame.received)) (fun before => ¬ Rejected before) header.val := by
  have hlength : header.val.length = 10 := header.property
  unfold Linux.receivePayload
  split
  · exact fun _ => hlength
  next hchecks =>
  rw [not_or, not_not, not_not] at hchecks
  have hencode := Linux.encodeHeader_of_checks header hchecks.1 hchecks.2
  dsimp only
  split
  · exact fun _ => hlength
  next hsize =>
  have haccepted : HeaderAccepted header.val := by
    refine ⟨hchecks.1, hchecks.2, ?_⟩
    rw [← Linux.headerSize_eq]
    simpa [Linux.MAX_PAYLOAD] using hsize
  have hsafe := not_rejected_append hlength haccepted
  split
  · next hzero =>
      refine ⟨⟨⟨header.val.getD 5 0, []⟩, rfl, ?_⟩, by simpa using hsafe []⟩
      rw [hzero] at hencode
      rw [encodeFrame, List.append_nil]
      exact hencode.symm
  · refine ⟨fun part _ => hsafe part, fun result after hafter => ?_⟩
    cases result with
    | none =>
        obtain ⟨part, -, rfl⟩ := hafter
        exact ends_failed rfl (hsafe part)
    | some payload =>
        obtain rfl : after = header.val ++ payload.val := hafter
        refine ⟨⟨⟨header.val.getD 5 0, payload.val⟩, rfl, ?_⟩, hsafe _⟩
        have hcount : payload.val.length = (Linux.headerSize header).toNat := payload.property
        rw [encodeFrame, hcount, hencode]

theorem not_rejected_nil (part : Bytes) (h : part.length < 10) : ¬ Rejected ([] ++ part) :=
  fun hrejected => absurd hrejected.1 (Nat.not_le.mpr h)

theorem linux_receiveFrame_keeps (timeoutMs : Int) :
    (Linux.receiveFrame timeoutMs).Keeps reading Cautious (Ends (Option.map Frame.received))
      (fun before => ¬ Rejected before) [] := by
  have hnil := not_rejected_nil [] (by decide)
  have hdeadline : (Linux.deadlineFor timeoutMs).Keeps reading Cautious
      (Prog.Returned fun _ after => after = []) (fun before => ¬ Rejected before) [] := by
    unfold Linux.deadlineFor
    split
    · exact rfl
    · exact ⟨hnil, fun now after hafter => hafter⟩
  unfold Linux.receiveFrame
  refine hdeadline.bind (fun _ _ hres => hres.elim) fun deadline start hstart => ?_
  obtain rfl : start = [] := hstart
  refine ⟨not_rejected_nil, fun result after hafter => ?_⟩
  cases result with
  | none =>
      obtain ⟨part, hpart, hafter⟩ := hafter
      rw [hafter]
      exact ends_failed rfl (not_rejected_nil part hpart)
  | some header =>
      obtain rfl : after = [] ++ header.val := hafter
      exact linux_receivePayload_keeps

theorem android_readExact_keeps {size : Nat} {timeoutMs : Int}
    (h : ∀ part : Bytes, part.length < size → ¬ Rejected (before ++ part)) :
    (Android.readExact size timeoutMs deadline).Keeps reading Cautious
      (fun result after =>
        match result with
        | .ok bytes => bytes.length = size ∧ after = before ++ bytes
        | .error _ => ¬ Rejected after) (fun before => ¬ Rejected before) before := by
  unfold Android.readExact
  split
  · next hzero => exact ⟨hzero.symm, (List.append_nil _).symm⟩
  · refine ⟨h, fun result after hafter => ?_⟩
    cases result with
    | none =>
        obtain ⟨part, hpart, rfl⟩ := hafter
        exact h part hpart
    | some block => exact ⟨block.property, hafter⟩

theorem android_readFrame_keeps (timeoutMs : Int) :
    (Android.readFrame timeoutMs).Keeps reading Cautious (Ends some)
      (fun before => ¬ Rejected before) [] := by
  have hnil := not_rejected_nil [] (by decide)
  have hdeadline : (Android.readDeadline timeoutMs).Keeps reading Cautious
      (Prog.Returned fun _ after => after = []) (fun before => ¬ Rejected before) [] := by
    unfold Android.readDeadline
    split
    · exact rfl
    · exact ⟨hnil, fun now after hafter => hafter⟩
  unfold Android.readFrame
  refine hdeadline.bind (fun _ _ hres => hres.elim) fun deadline start hstart => ?_
  obtain rfl : start = [] := hstart
  refine (android_readExact_keeps not_rejected_nil).bind
    (fun _ _ hres hrejected => absurd hrejected hres) fun header middle hmiddle => ?_
  obtain ⟨hlength, hmiddle⟩ := hmiddle
  obtain rfl : middle = header := hmiddle
  have hlength : middle.length = 10 := hlength
  split
  · exact fun _ => hlength
  next hchecks =>
  rw [not_or, not_not, not_not] at hchecks
  have hversion : (middle.getD 4 0).toNat = 2 := by
    have hvalue := hchecks.2
    rw [Android.and_0xff] at hvalue
    exact Int.ofNat_inj.mp hvalue
  have hcount := Android.getInt_of_checks (middle.drop 6) (by simp [hlength])
  generalize Android.getInt (middle.drop 6) = length at hcount ⊢
  dsimp only
  split
  · exact fun _ => hlength
  next hsize =>
  rw [not_or] at hsize
  obtain rfl : length = beNat (middle.drop 6) := hcount hsize.1
  have haccepted : HeaderAccepted middle := by
    refine ⟨hchecks.1, UInt8.toNat_inj.mp hversion, ?_⟩
    have hsmall := hsize.2
    rw [Android.MAX_PAYLOAD] at hsmall
    omega
  have hsafe := not_rejected_append hlength haccepted
  refine (android_readExact_keeps fun part _ => hsafe part).bind
    (fun _ _ hres hrejected => absurd hrejected hres) fun payload after hafter => ?_
  obtain ⟨hpayload, rfl⟩ := hafter
  refine ⟨⟨⟨middle.getD 5 0, payload⟩, ?_, ?_⟩, hsafe payload⟩
  · rw [Android.and_0xff]
    rfl
  · rw [Int.toNat_natCast] at hpayload
    rw [encodeFrame, hpayload, Android.encodeHeader_of_checks hlength hchecks.1 hversion]

variable {receiver : Implementation} {timeoutMs : Int} {trace : List SocketEvent}
  {stop : SocketProgram (Option Android.Frame)}

/-- However it goes, a receiving call ends with what it has taken. -/
theorem receive_frame_keeps (receiver : Implementation) (passes : Nat) (timeoutMs : Int) :
    (receiver.receive passes timeoutMs).Keeps taking (fun before _ => ¬ Rejected before)
      (Ends id) (fun before => ¬ Rejected before) [] := by
  cases receiver with
  | linux =>
      refine (Prog.Keeps.refine _ (linux_receiveFrame_keeps timeoutMs) linux_takes).bind
        (fun _ _ hres => hres) fun frame after hafter => hafter
  | android =>
      refine (Prog.Keeps.refine _ (android_readFrame_keeps timeoutMs) android_takes).bind
        (fun _ _ hres => hres) fun frame after hafter => hafter

theorem receive_keeps (run : Runs (receiver.receive passes timeoutMs) trace stop) :
    stop.Keeps taking (fun before _ => ¬ Rejected before) (Ends id)
      (fun before => ¬ Rejected before) (consumed trace) := by
  have hpath := lives_taking [] trace
  rw [List.nil_append] at hpath
  exact (receive_frame_keeps receiver passes timeoutMs).along run hpath

end Consumption

/-- What carries frames between two implementations. -/
structure CarriesFrames (sender receiver : Implementation) : Prop where
  /-- Frames that are sent while no deadline expires are received as they are, in order and
  to the last byte, however often either side is interrupted. -/
  carried : ∀ (passes : Nat) (frames : List (Frame × Int)) (timeouts : List Int)
    (sendStart sendEnd receiveStart receiveEnd : Stream) (sent : List Bool)
    (results : List (Option Android.Frame)),
    (∀ entry ∈ frames, entry.1.payload.length ≤ 65536) → timeouts.length = frames.length →
    65536 + sendStart.interruptions < passes → 65536 + receiveStart.interruptions < passes →
    sendStart.sent = [] → receiveStart.unread = sendEnd.sent →
    Successive sendStart (sends sender passes frames) sent sendEnd →
    Successive receiveStart (receives receiver passes timeouts) results receiveEnd →
    results = frames.map (fun entry => some entry.1.received) ∧ receiveEnd.unread = []
  /-- Each of these calls comes to its end. -/
  sends : ∀ (passes : Nat) (frame : Frame) (timeoutMs : Int) (state : Stream),
    frame.payload.length ≤ 65536 → 65536 + state.interruptions < passes →
    (sender.send passes frame timeoutMs).Completes (fragments timeoutMs)
      (fun sent after => sent = true ∧ after.sent = state.sent ++ encodeFrame frame) state.begin
  receives : ∀ (passes : Nat) (frame : Frame) (timeoutMs : Int) (state : Stream) (rest : Bytes),
    frame.payload.length ≤ 65536 → 65536 + state.interruptions < passes →
    state.unread = encodeFrame frame ++ rest →
    (receiver.receive passes timeoutMs).Completes (fragments timeoutMs)
      (fun result after => result = some frame.received ∧ after.unread = rest) state.begin
  /-- From any stream, a frame that is returned is spelled by the bytes that were taken. -/
  spelled : ∀ (passes : Nat) (timeoutMs : Int) (trace : List SocketEvent) (result : Android.Frame),
    Runs (receiver.receive passes timeoutMs) trace (.ret (some result)) →
    ∃ frame, result = frame.received ∧ consumed trace = encodeFrame frame
  /-- Behind ten bytes that are no header, nothing is taken and the call has failed. -/
  rejects : ∀ (passes : Nat) (timeoutMs : Int) (trace : List SocketEvent)
    (stop : SocketProgram (Option Android.Frame)),
    Runs (receiver.receive passes timeoutMs) trace stop → 10 ≤ (consumed trace).length →
    ¬ HeaderAccepted ((consumed trace).take 10) →
    (consumed trace).length = 10 ∧ (stop = .ret none ∨ ∃ error, stop = .throw error)

theorem carriesFrames (sender receiver : Implementation) : CarriesFrames sender receiver where
  carried passes frames timeouts sendStart sendEnd receiveStart receiveEnd sent results hsizes
      hlength hsend hreceive hstart hwire hsent hreceived := by
    obtain ⟨-, -, hbytes⟩ := hsent.sent hsizes hsend
    rw [hstart, List.nil_append] at hbytes
    rw [hbytes, ← List.append_nil (encodeFrames _)] at hwire
    obtain ⟨hresults, hrest⟩ := hreceived.received (by rw [List.length_map, hlength])
      (by simpa using hsizes) hreceive hwire
    rw [List.map_map] at hresults
    exact ⟨hresults, hrest⟩
  sends passes frame timeoutMs state hsize hpasses :=
    (send_frame_completes sender hsize hpasses).mono fun _ _ h => ⟨h.1, h.2.2.1⟩
  receives passes frame timeoutMs state rest hsize hpasses hunread :=
    (receive_frame_completes receiver hsize hpasses hunread).mono fun _ _ h => ⟨h.1, h.2.1⟩
  spelled passes timeoutMs trace result run := (receive_keeps run).1
  rejects passes timeoutMs trace stop run hlength hheader := by
    have hrejected : Rejected (consumed trace) := ⟨hlength, hheader⟩
    have hstop := receive_keeps run
    cases stop with
    | ret value =>
        cases value with
        | none => exact ⟨hstop hrejected, Or.inl rfl⟩
        | some result => exact absurd hrejected hstop.2
    | throw error => exact ⟨hstop hrejected, Or.inr ⟨error, rfl⟩⟩
    | unfinished => exact absurd hrejected hstop
    | call op next => exact absurd hrejected hstop.1

end OpenCam.Control
