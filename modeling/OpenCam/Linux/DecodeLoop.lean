import OpenCam.Interaction.World
import OpenCam.Linux.MediaPipeline

/-!
The decode loop of the worker against a decoder that follows FFmpeg's contract:
packets and frames are neither lost nor duplicated, and every reference taken is
given back. The world keeps the books of a run, with the frames that the
decoder holds ready.
-/

namespace OpenCam.Linux.MediaPipeline

open Octets Interaction Control

section Books

/-- The books of a run. -/
structure Ledger where
  /-- A load has seen the request to stop. -/
  stopRequested : Bool := false
  videoStreamIndex : Option Nat := none
  /-- The frames that can be received, in output order. -/
  pending : List AVFrame := []
  /-- The packets of the video stream, as they were read. -/
  read : List AVPacket := []
  accepted : List AVPacket := []
  received : List AVFrame := []
  /-- The frames converted whole, which are handed to `writePackedYuv420`. -/
  passed : List AVFrame := []
  writing : Option ConvertedFrame := none
  /-- How often the write of this frame was put off. -/
  attempts : Nat := 0
  packetHeld : Bool := false
  frameHeld : Bool := false
  writeFailed : Bool := false
  /-- A failure that ends the run with a packet or a frame in hand. -/
  failed : Bool := false
  /-- The failure was one to convert a frame. -/
  unconverted : Bool := false

/-- The packet belongs to the video stream. -/
def Ledger.chosen (ledger : Ledger) (packet : AVPacket) : Bool :=
  match ledger.videoStreamIndex with
  | none => false
  | some index => packet.streamIndex = index

/-- A decoder refuses a packet with `EAGAIN` only while frames can be received.
An accepted packet makes finitely many more frames ready. -/
def sends (before : Ledger) (packet : AVPacket) (result : Int) (after : Ledger) : Prop :=
  if result = AVERROR_EAGAIN then before.pending ≠ [] ∧ after = before
  else if result < 0 then
    ∃ pending, after = { before with pending := pending, failed := true }
  else
    ∃ decoded, after =
      { before with
        pending := before.pending ++ decoded
        accepted := before.accepted ++ [packet] }

/-- Frames are received in their order, and `EAGAIN` or the end of the stream is
answered when none is ready. -/
def receives (before : Ledger) (result : Int) (frame : AVFrame) (after : Ledger) : Prop :=
  if result = AVERROR_EAGAIN ∨ result = AVERROR_EOF then before.pending = [] ∧ after = before
  else if result < 0 then
    ∃ pending, after = { before with pending := pending, failed := true }
  else
    ∃ rest, before.pending = frame :: rest ∧ after =
      { before with
        pending := rest
        received := before.received ++ [frame]
        frameHeld := true }

/-- A stop, once requested, stays requested. It turns a write that has just failed
into an orderly end. -/
def loadsStop (before : Ledger) (stop : Bool) (after : Ledger) : Prop :=
  (before.stopRequested = true → stop = true) ∧ after =
    { before with
      stopRequested := stop
      writeFailed := false
      failed := before.failed || (before.writeFailed && !stop) }

/-- The ledger after an operation without a choice. -/
def Ledger.book (before : Ledger) : (op : WorkerOp) → op.Res → Ledger
  | .avformatFindStreamInfo, answer =>
      { before with videoStreamIndex := answer.2.findIdx? (· = .video) }
  | .avReadFrame, answer =>
      if answer.1 < 0 then before
      else
        { before with
          packetHeld := true
          read := if before.chosen answer.2 then before.read ++ [answer.2] else before.read }
  | .swsGetCachedContext _ _ _, made =>
      if made then before else { before with failed := true, unconverted := true }
  | .avFrameMakeWritable, result =>
      if result < 0 then { before with failed := true, unconverted := true } else before
  | .swsScale frame, answer =>
      if answer.1 = OUTPUT_HEIGHT then
        { before with
          passed := before.passed ++ [frame]
          writing := some answer.2
          attempts := 0 }
      else { before with failed := true, unconverted := true }
  | .write bytes, answer =>
      match answer with
      | .written count => { before with writeFailed := decide (count ≠ bytes.length) }
      | .interrupted | .wouldBlock => { before with attempts := before.attempts + 1 }
      | .failed => { before with writeFailed := true }
  | .poll _, answer =>
      match answer with
      | .failed => { before with writeFailed := true }
      | _ => before
  | .release .packetData, _ => { before with packetHeld := false }
  | .release .decodedFrameData, _ => { before with frameHeld := false, writing := none }
  | _, _ => before

/-- The world of the worker: a decoder under its contract, a stop at any moment,
and otherwise any answers. -/
def pipelineWorld : World WorkerOp WorkerOp.Res Ledger
  | before, .loadStopRequested, stop, after => loadsStop before stop after
  | before, .avcodecSendPacket packet, result, after => sends before packet result after
  | before, .avcodecReceiveFrame, answer, after => receives before answer.1 answer.2 after
  | before, op, answer, after => after = before.book op answer

/-- A packet is read when everything before it has gone its way. -/
structure Ledger.Level (ledger : Ledger) : Prop where
  stopRequested : ledger.stopRequested = false
  pending : ledger.pending = []
  accepted : ledger.accepted = ledger.read
  passed : ledger.passed = ledger.received
  packetHeld : ledger.packetHeld = false
  frameHeld : ledger.frameHeld = false
  failed : ledger.failed = false

/-- When the worker may perform an operation. Over a whole run, as against a call
of a single loop, the decoder has no frames left when a packet is offered. -/
def Ledger.Allows (whole : Prop) (ledger : Ledger) : WorkerOp → Prop
  | .avReadFrame => ledger.Level
  | .avcodecSendPacket packet =>
      ledger.read = ledger.accepted ++ [packet] ∧ ledger.passed = ledger.received ∧
        ledger.frameHeld = false ∧ (whole → ledger.pending = [])
  | .avcodecReceiveFrame => ledger.passed = ledger.received ∧ ledger.frameHeld = false
  | .swsScale frame => ledger.received = ledger.passed ++ [frame] ∧ ledger.frameHeld = true
  | .write bytes => ∃ frame layout, ledger.writing = some frame ∧ bytes = packFrame frame layout
  | .release .packetData => ledger.packetHeld = true
  | .release .decodedFrameData => ledger.frameHeld = true
  | _ => True

/-- No packet is accepted and no frame passed on twice or out of order, and at
most one of each is in hand. -/
structure Ledger.Ordered (ledger : Ledger) : Prop where
  packets : ledger.read = ledger.accepted ∨ ∃ packet, ledger.read = ledger.accepted ++ [packet]
  frames : ledger.received = ledger.passed ∨ ∃ frame, ledger.received = ledger.passed ++ [frame]

/-- All is given back. No packet was left out unless the run has failed, and no
frame unless a conversion has. -/
structure Ledger.Settled (ledger : Ledger) : Prop where
  packetHeld : ledger.packetHeld = false
  frameHeld : ledger.frameHeld = false
  accepted : ledger.failed = false → ledger.accepted = ledger.read
  passed : ledger.unconverted = false → ledger.passed = ledger.received

/-- A loop of a single call is cut only while a frame is being written. The loops
of a whole run may be cut anywhere. -/
def Cut (whole : Prop) (passes : Nat) (ledger : Ledger) : Prop :=
  whole ∨ ledger.writing ≠ none ∧ passes ≤ ledger.attempts

abbrev WorkerUpholds {α : Type} (whole : Prop) (passes : Nat) (post : α → Ledger → Prop)
    (program : Worker α) (ledger : Ledger) : Prop :=
  program.Upholds pipelineWorld ⟨Ledger.Allows whole, post, Cut whole passes⟩ ledger

end Books

section Frames

variable {whole : Prop} {passes : Nat} {layout : OutputLayout} {ledger : Ledger}

/-- What the loop of a write changes. -/
def Wrote (ledger : Ledger) (result : Bool × String) (after : Ledger) : Prop :=
  ∃ stop attempts writeFailed,
    after = { ledger with
      stopRequested := stop, attempts := attempts, writeFailed := writeFailed } ∧
    (result.1 = true → writeFailed = false) ∧
    (result.1 = false → writeFailed = true ∨ stop = true)

theorem upholds_writePacked {frame : ConvertedFrame} (hwriting : ledger.writing = some frame)
    (hcalm : ledger.writeFailed = false) (error : String) (fuel : Nat)
    (hattempts : ledger.attempts + fuel = passes) :
    WorkerUpholds whole passes (Wrote ledger) (writePacked (packFrame frame layout) error fuel)
      ledger := by
  induction fuel generalizing ledger with
  | zero =>
      refine Or.inr ⟨by simp [hwriting], ?_⟩
      omega
  | succ fuel ih =>
      rw [writePacked]
      apply Prog.upholds_perform_bind trivial
      rintro stop after ⟨_, rfl⟩
      cases stop with
      | true => exact ⟨true, ledger.attempts, false, by simp [hcalm], fun _ => rfl, fun _ => .inr rfl⟩
      | false =>
          -- the ledger in front of the call of `write`
          have hbefore : ({ ledger with
              stopRequested := false
              writeFailed := false
              failed := ledger.failed || (ledger.writeFailed && !false) } : Ledger) =
              { ledger with stopRequested := false, writeFailed := false } := by
            simp [hcalm]
          rw [hbefore]
          have hagain : ∀ again : Ledger,
              again = { ledger with
                stopRequested := false, writeFailed := false, attempts := ledger.attempts + 1 } →
              WorkerUpholds whole passes (Wrote ledger)
                (writePacked (packFrame frame layout) error fuel) again := by
            rintro again rfl
            have hfuel : ledger.attempts + 1 + fuel = passes := by omega
            apply Prog.Upholds.mono (@ih { ledger with
              stopRequested := false, writeFailed := false, attempts := ledger.attempts + 1 }
                hwriting rfl hfuel)
            rintro result after ⟨stop, attempts, failed, rfl, hfirst, hsecond⟩
            exact ⟨stop, attempts, failed, rfl, hfirst, hsecond⟩
          refine Prog.upholds_perform_bind ⟨frame, layout, hwriting, rfl⟩ ?_
          rintro answer after rfl
          cases answer with
          | written count =>
              by_cases hcount : count = (packFrame frame layout).length
              · dsimp only
                rw [if_pos hcount]
                refine ⟨false, ledger.attempts, false, ?_, fun _ => rfl, fun h => Bool.noConfusion h⟩
                simp [Ledger.book, hcount]
              · dsimp only
                rw [if_neg hcount]
                refine ⟨false, ledger.attempts, true, ?_, fun h => Bool.noConfusion h, fun _ => .inl rfl⟩
                simp [Ledger.book, hcount]
          | interrupted => exact hagain _ rfl
          | wouldBlock =>
              apply Prog.upholds_perform_bind trivial
              rintro ready after rfl
              cases ready with
              | failed =>
                  exact ⟨false, ledger.attempts + 1, true, rfl, fun h => Bool.noConfusion h,
                    fun _ => .inl rfl⟩
              | ready revents => exact hagain _ rfl
              | timeout => exact hagain _ rfl
              | interrupted => exact hagain _ rfl
          | failed =>
              exact ⟨false, ledger.attempts, true, rfl, fun h => Bool.noConfusion h, fun _ => .inl rfl⟩

/-- A received frame that is not handed on yet. -/
structure Ledger.InHand (ledger : Ledger) (frame : AVFrame) : Prop where
  received : ledger.received = ledger.passed ++ [frame]
  frameHeld : ledger.frameHeld = true
  writeFailed : ledger.writeFailed = false
  failed : ledger.failed = false

/-- Every received frame has gone its way. -/
structure Ledger.Even (ledger : Ledger) : Prop where
  passed : ledger.passed = ledger.received
  frameHeld : ledger.frameHeld = false
  writeFailed : ledger.writeFailed = false
  failed : ledger.failed = false

/-- The run ends in a failure. -/
structure Ledger.Broken (ledger : Ledger) : Prop where
  failed : ledger.failed = true
  frameHeld : ledger.frameHeld = false
  passed : ledger.unconverted = false → ledger.passed = ledger.received

/-- What frames leave alone. -/
structure Ledger.SamePackets (ledger after : Ledger) : Prop where
  read : after.read = ledger.read
  accepted : after.accepted = ledger.accepted
  packetHeld : after.packetHeld = ledger.packetHeld
  videoStreamIndex : after.videoStreamIndex = ledger.videoStreamIndex

theorem Ledger.SamePackets.trans {first second third : Ledger} (h : first.SamePackets second)
    (hnext : second.SamePackets third) : first.SamePackets third where
  read := hnext.read.trans h.read
  accepted := hnext.accepted.trans h.accepted
  packetHeld := hnext.packetHeld.trans h.packetHeld
  videoStreamIndex := hnext.videoStreamIndex.trans h.videoStreamIndex

/-- What `processFrame` leaves: the frame passed on, or a failure. -/
structure Processed (ledger : Ledger) (result : Option Bool × String) (after : Ledger) : Prop where
  packets : ledger.SamePackets after
  pending : after.pending = ledger.pending
  next : result.1 = none → after.Even
  drained : result.1 = some true → after.Even ∧ after.stopRequested = true
  failed : result.1 = some false → after.Broken

/-- A frame that is given up is given back. -/
theorem upholds_discardFrame {frame : AVFrame} (h : ledger.InHand frame) (error : String) :
    WorkerUpholds whole passes (Processed ledger) (discardFrame error)
      { ledger with failed := true, unconverted := true } := by
  refine Prog.upholds_perform_bind h.frameHeld ?_
  rintro _ after rfl
  exact
    { packets := ⟨rfl, rfl, rfl, rfl⟩
      pending := rfl
      next := fun h => absurd h (by simp)
      drained := fun h => absurd h (by simp)
      failed := fun _ => ⟨rfl, rfl, fun h => Bool.noConfusion h⟩ }

/-- Behind the conversion: the frame is written and given back. -/
theorem upholds_written {frame : AVFrame} (h : ledger.InHand frame) (converted : ConvertedFrame)
    (error : String) :
    WorkerUpholds whole passes (Processed ledger)
      (do
        let (written, error) ← writePackedYuv420 converted layout error passes
        request (.release .decodedFrameData)
        if written then return (none, error)
        else return (some (← request .loadStopRequested), error))
      { ledger with
        passed := ledger.passed ++ [frame], writing := some converted, attempts := 0 } := by
  have hwrite := @upholds_writePacked whole passes layout
    { ledger with passed := ledger.passed ++ [frame], writing := some converted, attempts := 0 }
    converted rfl h.writeFailed error passes (Nat.zero_add passes)
  apply hwrite.bind
  rintro ⟨written, error⟩ after ⟨stop, attempts, writeFailed, rfl, hwritten, hunwritten⟩
  refine Prog.upholds_perform_bind h.frameHeld ?_
  rintro _ after rfl
  cases written with
  | true =>
      obtain rfl := hwritten rfl
      exact
        { packets := ⟨rfl, rfl, rfl, rfl⟩
          pending := rfl
          next := fun _ => ⟨h.received.symm, rfl, rfl, h.failed⟩
          drained := fun h => absurd h (by simp)
          failed := fun h => absurd h (by simp) }
  | false =>
      apply Prog.upholds_perform_bind trivial
      rintro stopped after ⟨hstop, rfl⟩
      refine ⟨⟨rfl, rfl, rfl, rfl⟩, rfl, fun h => absurd h (by simp), ?_, ?_⟩
      · intro hresult
        obtain rfl : stopped = true := Option.some.inj hresult
        refine ⟨⟨h.received.symm, rfl, rfl, ?_⟩, rfl⟩
        simp [Ledger.book, h.failed]
      · intro hresult
        obtain rfl : stopped = false := Option.some.inj hresult
        rcases hunwritten rfl with rfl | rfl
        · exact ⟨by simp [Ledger.book], rfl, fun _ => h.received.symm⟩
        · exact absurd (hstop rfl) (by decide)

theorem upholds_processFrame {frame : AVFrame} (h : ledger.InHand frame) (error : String) :
    WorkerUpholds whole passes (Processed ledger) (processFrame layout passes frame error)
      ledger := by
  rw [processFrame]
  apply Prog.upholds_perform_bind trivial
  rintro made after rfl
  cases made with
  | false =>
      exact upholds_discardFrame h _
  | true =>
      change WorkerUpholds whole passes (Processed ledger) _ ledger
      apply Prog.upholds_perform_bind trivial
      rintro writable after rfl
      by_cases hwritable : writable < 0
      · have hprepared : ledger.book .avFrameMakeWritable writable =
            { ledger with failed := true, unconverted := true } := if_pos hwritable
        rw [if_pos hwritable, hprepared]
        exact upholds_discardFrame h _
      · have hprepared : ledger.book .avFrameMakeWritable writable = ledger :=
          if_neg hwritable
        rw [if_neg hwritable, hprepared]
        refine Prog.upholds_perform_bind ⟨h.received, h.frameHeld⟩ ?_
        rintro ⟨scaledRows, converted⟩ after rfl
        dsimp only
        by_cases hrows : scaledRows = OUTPUT_HEIGHT
        · have hscaled : ledger.book (.swsScale frame) (scaledRows, converted) =
              { ledger with
                passed := ledger.passed ++ [frame], writing := some converted, attempts := 0 } :=
            if_pos hrows
          rw [if_neg (not_not.mpr hrows), hscaled]
          exact upholds_written h converted error
        · have hscaled : ledger.book (.swsScale frame) (scaledRows, converted) =
              { ledger with failed := true, unconverted := true } := if_neg hrows
          rw [if_pos hrows, hscaled]
          exact upholds_discardFrame h _

end Frames

section Draining

variable {whole : Prop} {passes : Nat} {layout : OutputLayout} {ledger : Ledger}

/-- What `drainDecodedFrames` leaves. It answers `true` when no frame is left or
when a stop was seen, which takes one frame at least. -/
structure Drained (ledger : Ledger) (result : Bool × String) (after : Ledger) : Prop where
  packets : ledger.SamePackets after
  even : result.1 = true → after.Even
  pending : result.1 = true → after.pending = [] ∨
    after.stopRequested = true ∧ after.pending.length < ledger.pending.length
  failed : result.1 = false → after.Broken

theorem upholds_drainDecodedFrames (heven : ledger.Even) (error : String) (fuel : Nat)
    (hfuel : whole ∨ ledger.pending.length < fuel) :
    WorkerUpholds whole passes (Drained ledger) (drainDecodedFrames layout passes error fuel)
      ledger := by
  induction fuel generalizing ledger error with
  | zero => exact Or.inl (hfuel.resolve_right (Nat.not_lt_zero _))
  | succ fuel ih =>
      rw [drainDecodedFrames]
      refine Prog.upholds_perform_bind ⟨heven.passed, heven.frameHeld⟩ ?_
      rintro ⟨result, frame⟩ after hanswer
      change receives ledger result frame after at hanswer
      unfold receives at hanswer
      dsimp only
      by_cases hempty : result = AVERROR_EAGAIN ∨ result = AVERROR_EOF
      · rw [if_pos hempty] at hanswer ⊢
        obtain ⟨hpending, rfl⟩ := hanswer
        exact ⟨⟨rfl, rfl, rfl, rfl⟩, fun _ => heven, fun _ => .inl hpending, fun h => absurd h (by simp)⟩
      rw [if_neg hempty] at hanswer ⊢
      by_cases hfailed : result < 0
      · rw [if_pos hfailed] at hanswer ⊢
        obtain ⟨pending, rfl⟩ := hanswer
        exact ⟨⟨rfl, rfl, rfl, rfl⟩, fun h => absurd h (by simp), fun h => Bool.noConfusion h,
          fun _ => ⟨rfl, heven.frameHeld, fun _ => heven.passed⟩⟩
      rw [if_neg hfailed] at hanswer ⊢
      obtain ⟨rest, hpending, rfl⟩ := hanswer
      have hinHand : Ledger.InHand
          { ledger with
            pending := rest, received := ledger.received ++ [frame], frameHeld := true } frame :=
        ⟨congrArg (· ++ [frame]) heven.passed.symm, rfl, heven.writeFailed, heven.failed⟩
      have hlength : ledger.pending.length = rest.length + 1 := congrArg List.length hpending
      apply (upholds_processFrame hinHand error).bind
      rintro ⟨drained, error⟩ after hprocessed
      have hrest : after.pending.length < ledger.pending.length := by
        have hsame : after.pending.length = rest.length :=
          congrArg List.length hprocessed.pending
        omega
      have hpackets : ledger.SamePackets after :=
        ⟨hprocessed.packets.read, hprocessed.packets.accepted, hprocessed.packets.packetHeld,
          hprocessed.packets.videoStreamIndex⟩
      cases drained with
      | some drained =>
          cases drained with
          | true =>
              obtain ⟨heven', hstop⟩ := hprocessed.drained rfl
              exact ⟨hpackets, fun _ => heven', fun _ => .inr ⟨hstop, hrest⟩, fun h => absurd h (by simp)⟩
          | false =>
              exact ⟨hpackets, fun h => absurd h (by simp), fun h => Bool.noConfusion h,
                fun _ => hprocessed.failed rfl⟩
      | none =>
          have hnext : whole ∨ after.pending.length < fuel := by
            rcases hfuel with hwhole | hfuel
            · exact .inl hwhole
            · right
              omega
          apply (ih (hprocessed.next rfl) error hnext).mono
          rintro outcome final hdrained
          refine ⟨hpackets.trans hdrained.packets, hdrained.even, fun htrue => ?_, hdrained.failed⟩
          rcases hdrained.pending htrue with hnone | ⟨hstop, hless⟩
          · exact .inl hnone
          · exact .inr ⟨hstop, Nat.lt_trans hless hrest⟩

/-- The packet in hand is one that the decoder has not accepted. -/
structure Ledger.Offers (ledger : Ledger) (packet : AVPacket) : Prop extends ledger.Even where
  read : ledger.read = ledger.accepted ++ [packet]

/-- What the retry loop leaves. -/
structure Sent (ledger : Ledger) (result : Int × Bool × String) (after : Ledger) : Prop where
  read : after.read = ledger.read
  packetHeld : after.packetHeld = ledger.packetHeld
  videoStreamIndex : after.videoStreamIndex = ledger.videoStreamIndex
  accepted : result.2.1 = true → 0 ≤ result.1 → after.Even ∧ after.accepted = after.read
  rejected : result.2.1 = true → result.1 < 0 → after.Broken
  failed : result.2.1 = false → after.Broken

/-- Each pass but the last takes a frame from the decoder. -/
theorem upholds_sendPacket {packet : AVPacket} (hoffers : ledger.Offers packet)
    (hdrained : whole → ledger.pending = []) (error : String) (fuel : Nat) (hfuel : whole ∨ ledger.pending.length < fuel)
    (hpasses : whole ∨ ledger.pending.length < passes) :
    WorkerUpholds whole passes (Sent ledger) (sendPacket layout passes packet error fuel)
      ledger := by
  induction fuel generalizing ledger error with
  | zero => exact Or.inl (hfuel.resolve_right (Nat.not_lt_zero _))
  | succ fuel ih =>
      rw [sendPacket]
      refine Prog.upholds_perform_bind
        ⟨hoffers.read, hoffers.passed, hoffers.frameHeld, hdrained⟩ ?_
      rintro result after hanswer
      change sends ledger packet result after at hanswer
      unfold sends at hanswer
      by_cases hagain : result = AVERROR_EAGAIN
      · rw [if_pos hagain] at hanswer ⊢
        obtain ⟨hpending, rfl⟩ := hanswer
        apply (upholds_drainDecodedFrames hoffers.toEven error passes hpasses).bind
        rintro ⟨drained, error⟩ final hleft
        cases drained with
        | false =>
            exact ⟨hleft.packets.read, hleft.packets.packetHeld,
              hleft.packets.videoStreamIndex, fun h => absurd h (by simp), fun h => Bool.noConfusion h,
              fun _ => hleft.failed rfl⟩
        | true =>
            have hless : final.pending.length < after.pending.length := by
              rcases hleft.pending rfl with hnone | ⟨_, hless⟩
              · rw [hnone]
                exact List.length_pos_of_ne_nil hpending
              · exact hless
            have hbelow : ∀ {bound : Nat}, whole ∨ after.pending.length < bound + 1 →
                whole ∨ final.pending.length < bound := by
              rintro bound (hwhole | hbound)
              · exact .inl hwhole
              · right
                omega
            have hread : final.read = final.accepted ++ [packet] := by
              rw [hleft.packets.read, hleft.packets.accepted, hoffers.read]
            have hempty : whole → final.pending = [] :=
              fun hwhole => absurd (hdrained hwhole) hpending
            have hnext := @ih final ⟨hleft.even rfl, hread⟩ hempty error (hbelow hfuel)
              (hpasses.imp id fun hpasses => Nat.lt_trans hless hpasses)
            apply hnext.mono
            rintro outcome last hsent
            exact ⟨hsent.read.trans hleft.packets.read,
              hsent.packetHeld.trans hleft.packets.packetHeld,
              hsent.videoStreamIndex.trans hleft.packets.videoStreamIndex, hsent.accepted,
              hsent.rejected, hsent.failed⟩
      · rw [if_neg hagain] at hanswer ⊢
        by_cases hrejected : result < 0
        · rw [if_pos hrejected] at hanswer
          obtain ⟨pending, rfl⟩ := hanswer
          exact ⟨rfl, rfl, rfl, fun _ hresult => absurd hrejected (Int.not_lt.mpr hresult),
            fun _ _ => ⟨rfl, hoffers.frameHeld, fun _ => hoffers.passed⟩, fun h => absurd h (by simp)⟩
        · rw [if_neg hrejected] at hanswer
          obtain ⟨decoded, rfl⟩ := hanswer
          exact ⟨rfl, rfl, rfl, fun _ _ => ⟨⟨hoffers.passed, hoffers.frameHeld,
            hoffers.writeFailed, hoffers.failed⟩, hoffers.read.symm⟩,
            fun _ hresult => absurd hresult hrejected, fun h => absurd h (by simp)⟩

end Draining

section Packets

variable {passes : Nat} {layout : OutputLayout} {ledger : Ledger}

/-- Between two packets everything has gone its way, unless a stop was seen. -/
structure Ledger.Between (ledger : Ledger) : Prop extends ledger.Even where
  accepted : ledger.accepted = ledger.read
  packetHeld : ledger.packetHeld = false
  pending : ledger.pending = [] ∨ ledger.stopRequested = true

theorem Ledger.Between.settled (h : ledger.Between) : ledger.Settled :=
  ⟨h.packetHeld, h.frameHeld, fun _ => h.accepted, fun _ => h.passed⟩

theorem Ledger.Even.load (h : ledger.Even) {stop : Bool} {after : Ledger}
    (hload : loadsStop ledger stop after) : after = { ledger with stopRequested := stop } := by
  obtain ⟨_, rfl⟩ := hload
  simp [h.writeFailed]

theorem Ledger.Between.load (h : ledger.Between) {stop : Bool} {after : Ledger}
    (hload : loadsStop ledger stop after) :
    after.Between ∧ after.videoStreamIndex = ledger.videoStreamIndex ∧
      (stop = false → after.Level) := by
  have hmonotone := hload.1
  obtain rfl := h.toEven.load hload
  refine ⟨⟨⟨h.passed, h.frameHeld, h.writeFailed, h.failed⟩, h.accepted, h.packetHeld, ?_⟩, rfl, ?_⟩
  · exact h.pending.imp id hmonotone
  · rintro rfl
    have hpending : ledger.pending = [] :=
      h.pending.resolve_right fun hstop => absurd (hmonotone hstop) (by decide)
    exact ⟨rfl, hpending, h.accepted, h.passed, h.packetHeld, h.frameHeld, h.failed⟩

theorem Ledger.Settled.load (h : ledger.Settled) {stop : Bool} {after : Ledger}
    (hload : loadsStop ledger stop after) : after.Settled := by
  obtain ⟨_, rfl⟩ := hload
  refine ⟨h.packetHeld, h.frameHeld, fun hfailed => ?_, h.passed⟩
  rw [Bool.or_eq_false_iff] at hfailed
  exact h.accepted hfailed.1

/-- What a packet of the video stream leaves. -/
structure Taken (ledger : Ledger) (result : Bool × String) (after : Ledger) : Prop where
  packetHeld : after.packetHeld = ledger.packetHeld
  videoStreamIndex : after.videoStreamIndex = ledger.videoStreamIndex
  even : result.1 = true → after.Even ∧ after.accepted = after.read
  pending : result.1 = true → after.pending = [] ∨ after.stopRequested = true
  failed : result.1 = false → after.Broken

theorem upholds_processPacket {packet : AVPacket} (hoffers : ledger.Offers packet)
    (hpending : ledger.pending = []) (error : String) :
    WorkerUpholds True passes (Taken ledger) (processPacket layout passes packet error)
      ledger := by
  rw [processPacket]
  apply (upholds_sendPacket hoffers (fun _ => hpending) error passes (.inl trivial) (.inl trivial)).bind
  rintro ⟨result, successful, error⟩ middle hsent
  dsimp only
  cases successful with
  | false =>
      exact ⟨hsent.packetHeld, hsent.videoStreamIndex, fun h => absurd h (by simp), fun h => Bool.noConfusion h,
        fun _ => hsent.failed rfl⟩
  | true =>
      by_cases hrejected : result < 0
      · rw [if_pos rfl, if_pos hrejected]
        exact ⟨hsent.packetHeld, hsent.videoStreamIndex, fun h => absurd h (by simp),
          fun h => absurd h (by simp), fun _ => hsent.rejected rfl hrejected⟩
      · rw [if_pos rfl, if_neg hrejected]
        obtain ⟨heven, haccepted⟩ := hsent.accepted rfl (Int.not_lt.mp hrejected)
        apply (upholds_drainDecodedFrames heven error passes (.inl trivial)).mono
        rintro outcome after hdrained
        have hpackets := hdrained.packets
        refine ⟨hpackets.packetHeld.trans hsent.packetHeld,
          hpackets.videoStreamIndex.trans hsent.videoStreamIndex, fun htrue => ?_, fun htrue => ?_,
          hdrained.failed⟩
        · refine ⟨hdrained.even htrue, ?_⟩
          rw [hpackets.accepted, hpackets.read, haccepted]
        · exact (hdrained.pending htrue).imp id And.left

/-- A packet that was just read, of the video stream or of another. -/
theorem upholds_takePacket {before : Ledger} (hlevel : before.Level)
    (hcalm : before.writeFailed = false) {videoStreamIndex : Nat}
    (hindex : before.videoStreamIndex = some videoStreamIndex) (packet : AVPacket) (error : String)
    (hledger : ledger =
      { before with
        packetHeld := true
        read := if before.chosen packet then before.read ++ [packet] else before.read }) :
    WorkerUpholds True passes (Taken ledger)
      (takePacket layout passes videoStreamIndex packet error) ledger := by
  have hchosen : before.chosen packet = decide (packet.streamIndex = videoStreamIndex) := by
    rw [Ledger.chosen, hindex]
  unfold takePacket
  by_cases hstream : packet.streamIndex = videoStreamIndex
  · rw [if_pos hstream]
    rw [hchosen, decide_eq_true hstream] at hledger
    subst hledger
    apply upholds_processPacket
    · exact ⟨⟨hlevel.passed, hlevel.frameHeld, hcalm, hlevel.failed⟩,
        congrArg (· ++ [packet]) hlevel.accepted.symm⟩
    · exact hlevel.pending
  · rw [if_neg hstream]
    rw [hchosen, decide_eq_false hstream] at hledger
    subst hledger
    exact ⟨rfl, rfl, fun _ => ⟨⟨hlevel.passed, hlevel.frameHeld, hcalm, hlevel.failed⟩,
      hlevel.accepted⟩, fun _ => .inl hlevel.pending, fun h => Bool.noConfusion h⟩

/-- An operation that the ledger knows nothing of. -/
def WorkerOp.Aside : WorkerOp → Prop
  | .loadStopRequested | .avformatFindStreamInfo | .avReadFrame | .avcodecSendPacket _
  | .avcodecReceiveFrame | .swsGetCachedContext _ _ _ | .avFrameMakeWritable | .swsScale _
  | .write _ | .poll _ | .release .packetData | .release .decodedFrameData => False
  | _ => True

theorem upholds_aside {α : Type} {program : Worker α} (h : program.Performs WorkerOp.Aside)
    (ledger : Ledger) :
    WorkerUpholds True passes (fun _ after => after = ledger) program ledger := by
  apply Prog.upholds_of_performs _ _ (.inl trivial) h
  · intro op hop
    cases op with
    | release resource => cases resource <;> trivial
    | avReadFrame => exact hop.elim
    | avcodecSendPacket packet => exact hop.elim
    | avcodecReceiveFrame => exact hop.elim
    | swsScale frame => exact hop.elim
    | write bytes => exact hop.elim
    | _ => trivial
  · intro op res after hop hanswer
    cases op with
    | release resource =>
        cases resource with
        | packetData => exact hop.elim
        | decodedFrameData => exact hop.elim
        | _ => exact hanswer
    | loadStopRequested => exact hop.elim
    | avformatFindStreamInfo => exact hop.elim
    | avReadFrame => exact hop.elim
    | avcodecSendPacket packet => exact hop.elim
    | avcodecReceiveFrame => exact hop.elim
    | swsGetCachedContext width height format => exact hop.elim
    | avFrameMakeWritable => exact hop.elim
    | swsScale frame => exact hop.elim
    | write bytes => exact hop.elim
    | poll timeout => exact hop.elim
    | _ => exact hanswer

theorem aside_ffmpegError (code : Int) : (ffmpegError code).Performs WorkerOp.Aside := by
  refine ⟨trivial, fun text => ?_⟩
  cases text <;> trivial

theorem upholds_readPackets (h : ledger.Between) {videoStreamIndex : Nat}
    (hindex : ledger.videoStreamIndex = some videoStreamIndex) (error : String) (fuel : Nat) :
    WorkerUpholds True passes (fun _ after => after.Settled)
      (readPackets layout passes videoStreamIndex error fuel) ledger := by
  induction fuel generalizing ledger error with
  | zero => exact Or.inl trivial
  | succ fuel ih =>
      rw [readPackets]
      apply Prog.upholds_perform_bind trivial
      rintro stop before hload
      obtain ⟨hbefore, hsame, hlevel⟩ := h.load hload
      cases stop with
      | true => exact hbefore.settled
      | false =>
          refine Prog.upholds_perform_bind (hlevel rfl) ?_
          rintro ⟨result, packet⟩ after rfl
          dsimp only
          by_cases hfailed : result < 0
          · have hread : before.book .avReadFrame (result, packet) = before := if_pos hfailed
            rw [hread, if_pos hfailed]
            apply Prog.upholds_perform_bind trivial
            rintro stopped after hload
            have hsettled := hbefore.settled.load hload
            cases stopped with
            | true => exact hsettled
            | false =>
                by_cases hend : result = AVERROR_EOF
                · rw [if_pos hend]
                  exact hsettled
                · rw [if_neg hend]
                  apply (upholds_aside (aside_ffmpegError result) after).bind
                  rintro text final rfl
                  exact hsettled
          · have hread : before.book .avReadFrame (result, packet) =
                { before with
                  packetHeld := true
                  read := if before.chosen packet then before.read ++ [packet]
                    else before.read } := if_neg hfailed
            rw [if_neg hfailed]
            apply (upholds_takePacket (hlevel rfl) hbefore.writeFailed (hsame.trans hindex) packet
              error hread).bind
            rintro ⟨successful, error⟩ taken htaken
            rw [hread] at htaken
            refine Prog.upholds_perform_bind htaken.packetHeld ?_
            rintro _ final rfl
            cases successful with
            | true =>
                obtain ⟨heven, haccepted⟩ := htaken.even rfl
                apply @ih { taken with packetHeld := false }
                · exact ⟨⟨heven.passed, heven.frameHeld, heven.writeFailed, heven.failed⟩,
                    haccepted, rfl, htaken.pending rfl⟩
                · exact htaken.videoStreamIndex.trans (hsame.trans hindex)
            | false =>
                have hbroken := htaken.failed rfl
                refine ⟨rfl, hbroken.frameHeld, fun hfailed => ?_, hbroken.passed⟩
                exact absurd (hbroken.failed.symm.trans hfailed) (by decide)

end Packets

section Worker

variable {passes : Nat} {ledger : Ledger}

theorem aside_setFailure (message : String) : (setFailure message).Performs WorkerOp.Aside :=
  ⟨trivial, fun _ => ⟨trivial, fun _ => trivial⟩⟩

theorem aside_releaseAll {resources : List Resource}
    (h : ∀ resource ∈ resources, (WorkerOp.release resource).Aside) :
    (releaseAll resources).Performs WorkerOp.Aside := by
  induction resources with
  | nil => trivial
  | cons resource resources ih =>
      rw [List.forall_mem_cons] at h
      exact ⟨h.1, fun _ => ih h.2⟩

theorem aside_ioctlRetry {α : Type} {ioctl : Worker (IoctlResult α)}
    (h : ioctl.Performs WorkerOp.Aside) (passes : Nat) :
    (ioctlRetry ioctl passes).Performs WorkerOp.Aside := by
  induction passes with
  | zero => trivial
  | succ passes ih =>
      apply h.bind
      intro answer
      cases answer with
      | done value => trivial
      | interrupted => exact ih
      | failed => trivial

theorem aside_request {op : WorkerOp} (h : op.Aside) : (request op).Performs WorkerOp.Aside :=
  ⟨h, fun _ => trivial⟩

theorem aside_configureV4L2Output (passes : Nat) :
    (configureV4L2Output passes).Performs WorkerOp.Aside := by
  rw [configureV4L2Output]
  apply (aside_ioctlRetry (@aside_request .queryCapability trivial) passes).bind
  intro capability
  cases capability with
  | none => trivial
  | some capability =>
      dsimp only
      split
      · trivial
      · apply (aside_ioctlRetry (@aside_request (.setFormat requestedFormat) trivial) passes).bind
        intro format
        cases format with
        | none => trivial
        | some format =>
            dsimp only
            split
            · trivial
            · apply (aside_ioctlRetry (@aside_request (.setParameters 1 OUTPUT_FPS) trivial)
                passes).bind
              intro _
              trivial

theorem aside_openDecoder (stream : Nat) : (openDecoder stream).Performs WorkerOp.Aside := by
  rw [openDecoder]
  apply Prog.performs_perform_bind trivial
  intro found
  split
  · trivial
  apply Prog.performs_perform_bind trivial
  intro allocated
  split
  · trivial
  apply Prog.performs_perform_bind trivial
  intro result
  split
  · trivial
  apply Prog.performs_perform_bind trivial
  intro _
  trivial

theorem aside_abandon {message : String} {resources : List Resource}
    (h : ∀ resource ∈ resources, (WorkerOp.release resource).Aside) :
    (abandon message resources).Performs WorkerOp.Aside :=
  (aside_setFailure message).bind fun _ => aside_releaseAll h

/-- What stands aside keeps the books settled. -/
theorem upholds_settled {program : Worker Unit} (hsettled : ledger.Settled)
    (h : program.Performs WorkerOp.Aside) :
    WorkerUpholds True passes (fun _ after => after.Settled) program ledger := by
  apply (upholds_aside h ledger).mono
  rintro _ after rfl
  exact hsettled

theorem upholds_failUnlessStopped (hsettled : ledger.Settled) (message : String) (code : Int) :
    WorkerUpholds True passes (fun _ after => after.Settled) (failUnlessStopped message code)
      ledger := by
  rw [failUnlessStopped]
  apply Prog.upholds_perform_bind trivial
  rintro stop after hload
  have hafter := hsettled.load hload
  cases stop with
  | true => exact hafter
  | false =>
      apply upholds_settled hafter
      exact (aside_ffmpegError code).bind fun _ => aside_setFailure _

theorem upholds_abandonUnlessStopped (hsettled : ledger.Settled) (message : String) (code : Int)
    {resources : List Resource} (h : ∀ resource ∈ resources, (WorkerOp.release resource).Aside) :
    WorkerUpholds True passes (fun _ after => after.Settled)
      (abandonUnlessStopped message code resources) ledger := by
  apply (upholds_failUnlessStopped hsettled message code).bind
  rintro _ after hafter
  exact upholds_settled hafter (aside_releaseAll h)

theorem upholds_finish (hsettled : ledger.Settled) (successful : Bool) (processingError : String) :
    WorkerUpholds True passes (fun _ after => after.Settled) (finish successful processingError)
      ledger := by
  rw [finish]
  apply Prog.upholds_perform_bind trivial
  rintro stop middle hload
  have hmiddle := hsettled.load hload
  split
  · exact upholds_settled hmiddle (aside_setFailure _)
  · apply Prog.upholds_perform_bind trivial
    rintro again after hload
    have hafter := hmiddle.load hload
    split
    · exact upholds_settled hafter (aside_setFailure _)
    · exact hafter

theorem upholds_process (h : ledger.Between) {videoStreamIndex : Nat}
    (hindex : ledger.videoStreamIndex = some videoStreamIndex) (layout : OutputLayout) :
    WorkerUpholds True passes (fun _ after => after.Settled)
      (process videoStreamIndex layout passes) ledger := by
  rw [process]
  apply Prog.upholds_perform_bind trivial
  rintro _ after (rfl : after = ledger)
  apply (upholds_readPackets h hindex "" passes).bind
  rintro ⟨successful, processingError⟩ middle hmiddle
  have hreleased : (releaseAll [.scaler, .packet, .decodedFrame, .convertedFrame, .videoFd,
      .decoderContext, .format, .network]).Performs WorkerOp.Aside :=
    aside_releaseAll (by simp [WorkerOp.Aside])
  apply (upholds_settled hmiddle hreleased).bind
  rintro _ final hfinal
  exact upholds_finish hfinal successful processingError

theorem upholds_prepareFrames (h : ledger.Between) {videoStreamIndex : Nat}
    (hindex : ledger.videoStreamIndex = some videoStreamIndex) (layout : OutputLayout) :
    WorkerUpholds True passes (fun _ after => after.Settled)
      (prepareFrames videoStreamIndex layout passes) ledger := by
  rw [prepareFrames]
  apply Prog.upholds_perform_bind trivial
  rintro decodedFrame after (rfl : after = ledger)
  apply Prog.upholds_perform_bind trivial
  rintro convertedFrame after' (rfl : after' = after)
  apply Prog.upholds_perform_bind trivial
  rintro packet ledger (rfl : ledger = after')
  dsimp only
  split
  · exact upholds_settled h.settled (aside_abandon (by simp [WorkerOp.Aside]))
  · apply Prog.upholds_perform_bind trivial
    rintro result after (rfl : after = ledger)
    split
    · exact upholds_settled h.settled (aside_abandon (by simp [WorkerOp.Aside]))
    · exact upholds_process h hindex layout

theorem upholds_openOutput (h : ledger.Between) {videoStreamIndex : Nat}
    (hindex : ledger.videoStreamIndex = some videoStreamIndex) (videoDevice : Bytes) :
    WorkerUpholds True passes (fun _ after => after.Settled)
      (openOutput videoDevice videoStreamIndex passes) ledger := by
  rw [openOutput]
  apply (upholds_aside (aside_openDecoder videoStreamIndex) ledger).bind
  rintro opened after rfl
  split
  · exact upholds_settled h.settled (aside_abandon (by simp [WorkerOp.Aside]))
  apply Prog.upholds_perform_bind trivial
  rintro device ledger (rfl : ledger = after)
  split
  · exact upholds_settled h.settled (aside_abandon (by simp [WorkerOp.Aside]))
  apply (upholds_aside (aside_configureV4L2Output passes) ledger).bind
  rintro configured after rfl
  cases configured with
  | error v4l2Error =>
      exact upholds_settled h.settled (aside_abandon (by simp [WorkerOp.Aside]))
  | ok layout => exact upholds_prepareFrames h hindex layout

/-- The worker upholds its contract with the decoder. -/
theorem upholds_run (authenticatedRtspUrl videoDevice : Bytes) :
    WorkerUpholds True passes (fun _ after => after.Settled)
      (run authenticatedRtspUrl videoDevice passes) {} := by
  have hstart : Ledger.Between {} := ⟨⟨rfl, rfl, rfl, rfl⟩, rfl, rfl, .inl rfl⟩
  rw [run]
  apply Prog.upholds_perform_bind trivial
  rintro network after (rfl : after = {})
  split
  · exact upholds_settled hstart.settled (aside_setFailure _)
  apply Prog.upholds_perform_bind trivial
  rintro context after (rfl : after = {})
  split
  · exact upholds_settled hstart.settled (aside_abandon (by simp [WorkerOp.Aside]))
  apply Prog.upholds_perform_bind trivial
  rintro ⟨opened, format⟩ after (rfl : after = {})
  dsimp only
  split
  · apply upholds_abandonUnlessStopped hstart.settled
    cases format <;> simp [WorkerOp.Aside]
  apply Prog.upholds_perform_bind trivial
  rintro ⟨found, streams⟩ after (rfl : after =
    { videoStreamIndex := streams.findIdx? (· = .video) })
  have hbetween : Ledger.Between { videoStreamIndex := streams.findIdx? (· = .video) } :=
    ⟨⟨rfl, rfl, rfl, rfl⟩, rfl, rfl, .inl rfl⟩
  dsimp only
  split
  · exact upholds_abandonUnlessStopped hbetween.settled _ _ (by simp [WorkerOp.Aside])
  split
  · exact upholds_settled hbetween.settled (aside_abandon (by simp [WorkerOp.Aside]))
  · next videoStreamIndex hindex => exact upholds_openOutput hbetween hindex videoDevice

end Worker

section Handing

variable {α β : Type} {passes : Nat} {layout : OutputLayout}

/-- A frame converted whole goes to `writePackedYuv420` at once. -/
def HandsOver (passes : Nat) : (op : WorkerOp) → op.Res → Worker α → Prop
  | .swsScale _, answer, rest =>
      answer.1 = OUTPUT_HEIGHT →
        ∃ (layout : OutputLayout) (error : String) (next : Bool × String → Worker α),
          rest = (writePackedYuv420 answer.2 layout error passes >>= next)
  | _, _, _ => True

def HandsFrames (passes : Nat) : Worker α → Prop
  | .call op next => ∀ res, HandsOver passes op res (next res) ∧ HandsFrames passes (next res)
  | _ => True

/-- An operation other than a conversion. -/
def WorkerOp.Unscaled : WorkerOp → Prop
  | .swsScale _ => False
  | _ => True

theorem HandsOver.bind {op : WorkerOp} {res : op.Res} {rest : Worker α}
    (h : HandsOver passes op res rest) (next : α → Worker β) :
    HandsOver passes op res (rest >>= next) := by
  cases op with
  | swsScale frame =>
      intro hrows
      obtain ⟨layout, error, tail, rfl⟩ := h hrows
      exact ⟨layout, error, fun written => tail written >>= next, Prog.bind_assoc _ _ _⟩
  | _ => trivial

theorem HandsFrames.bind {program : Worker α} {next : α → Worker β}
    (first : HandsFrames passes program) (second : ∀ value, HandsFrames passes (next value)) :
    HandsFrames passes (program >>= next) := by
  induction program with
  | ret value => exact second value
  | throw error => trivial
  | unfinished => trivial
  | call op rest ih => exact fun res => ⟨(first res).1.bind next, ih res (first res).2⟩

theorem handsOver_unscaled {op : WorkerOp} (h : op.Unscaled) (res : op.Res) (rest : Worker α) :
    HandsOver passes op res rest := by
  cases op with
  | swsScale frame => exact h.elim
  | _ => trivial

theorem handsFrames_perform_bind {op : WorkerOp} (h : op.Unscaled) {next : op.Res → Worker α}
    (hnext : ∀ res, HandsFrames passes (next res)) :
    HandsFrames passes (Prog.perform op >>= next) :=
  fun res => ⟨handsOver_unscaled h res _, hnext res⟩

theorem handsFrames_aside {program : Worker α} (h : program.Performs WorkerOp.Aside) :
    HandsFrames passes program := by
  induction program with
  | ret value => trivial
  | throw error => trivial
  | unfinished => trivial
  | call op next ih =>
      intro res
      refine ⟨handsOver_unscaled ?_ res _, ih res (h.2 res)⟩
      cases op with
      | swsScale frame => exact h.1
      | _ => trivial

theorem handsFrames_writePacked (packed : Bytes) (error : String) (fuel : Nat) :
    HandsFrames passes (writePacked packed error fuel) := by
  induction fuel with
  | zero => trivial
  | succ fuel ih =>
      rw [writePacked]
      refine handsFrames_perform_bind (by trivial) ?_
      intro stop
      split
      · trivial
      refine handsFrames_perform_bind (by trivial) ?_
      intro answer
      cases answer with
      | written count =>
          dsimp only
          split <;> trivial
      | interrupted => exact ih
      | wouldBlock =>
          refine handsFrames_perform_bind (by trivial) ?_
          intro ready
          split
          · trivial
          · exact ih
      | failed => trivial

theorem handsFrames_discardFrame (error : String) : HandsFrames passes (discardFrame error) :=
  handsFrames_perform_bind (by trivial) fun _ => trivial

theorem handsFrames_processFrame (frame : AVFrame) (error : String) :
    HandsFrames passes (processFrame layout passes frame error) := by
  rw [processFrame]
  refine handsFrames_perform_bind (by trivial) ?_
  intro made
  split
  · exact handsFrames_discardFrame _
  refine handsFrames_perform_bind (by trivial) ?_
  intro writable
  split
  · exact handsFrames_discardFrame _
  -- the conversion
  rintro ⟨scaledRows, converted⟩
  change HandsOver passes (.swsScale frame) _
    (if scaledRows ≠ OUTPUT_HEIGHT then _ else _) ∧
      HandsFrames passes (if scaledRows ≠ OUTPUT_HEIGHT then _ else _)
  by_cases hrows : scaledRows = OUTPUT_HEIGHT
  · rw [if_neg (not_not.mpr hrows)]
    refine ⟨fun _ => ⟨layout, error, _, rfl⟩, ?_⟩
    apply (handsFrames_writePacked _ error passes).bind
    intro written
    refine handsFrames_perform_bind (by trivial) ?_
    intro _
    split
    · trivial
    · exact handsFrames_perform_bind (by trivial) fun _ => trivial
  · rw [if_pos hrows]
    exact ⟨fun h => absurd h hrows, handsFrames_discardFrame _⟩

theorem handsFrames_drainDecodedFrames (error : String) (fuel : Nat) :
    HandsFrames passes (drainDecodedFrames layout passes error fuel) := by
  induction fuel generalizing error with
  | zero => trivial
  | succ fuel ih =>
      rw [drainDecodedFrames]
      refine handsFrames_perform_bind (by trivial) ?_
      intro answer
      dsimp only
      split
      · trivial
      split
      · trivial
      apply (handsFrames_processFrame answer.2 error).bind
      rintro ⟨drained, error⟩
      cases drained with
      | some drained => trivial
      | none => exact ih error

theorem handsFrames_sendPacket (packet : AVPacket) (error : String) (fuel : Nat) :
    HandsFrames passes (sendPacket layout passes packet error fuel) := by
  induction fuel generalizing error with
  | zero => trivial
  | succ fuel ih =>
      rw [sendPacket]
      refine handsFrames_perform_bind (by trivial) ?_
      intro result
      split
      · apply (handsFrames_drainDecodedFrames error passes).bind
        intro drained
        dsimp only
        split
        · exact ih _
        · trivial
      · trivial

theorem handsFrames_takePacket (videoStreamIndex : Nat) (packet : AVPacket) (error : String) :
    HandsFrames passes (takePacket layout passes videoStreamIndex packet error) := by
  rw [takePacket]
  split
  · rw [processPacket]
    apply (handsFrames_sendPacket packet error passes).bind
    intro sent
    dsimp only
    split
    · split
      · trivial
      · exact handsFrames_drainDecodedFrames _ passes
    · trivial
  · trivial

theorem handsFrames_readPackets (videoStreamIndex : Nat) (error : String) (fuel : Nat) :
    HandsFrames passes (readPackets layout passes videoStreamIndex error fuel) := by
  induction fuel generalizing error with
  | zero => trivial
  | succ fuel ih =>
      rw [readPackets]
      refine handsFrames_perform_bind (by trivial) ?_
      intro stop
      split
      · trivial
      refine handsFrames_perform_bind (by trivial) ?_
      intro answer
      dsimp only
      split
      · refine handsFrames_perform_bind (by trivial) ?_
        intro stopped
        split
        · trivial
        split
        · trivial
        · exact (handsFrames_aside (aside_ffmpegError _)).bind fun _ => trivial
      · apply (handsFrames_takePacket videoStreamIndex answer.2 error).bind
        intro taken
        refine handsFrames_perform_bind (by trivial) ?_
        intro _
        split
        · exact ih _
        · trivial

theorem handsFrames_failUnlessStopped (message : String) (code : Int) :
    HandsFrames passes (failUnlessStopped message code) := by
  rw [failUnlessStopped]
  refine handsFrames_perform_bind (by trivial) ?_
  intro stop
  split
  · exact (handsFrames_aside (aside_ffmpegError code)).bind
      fun _ => handsFrames_aside (aside_setFailure _)
  · trivial

theorem handsFrames_finish (successful : Bool) (processingError : String) :
    HandsFrames passes (finish successful processingError) := by
  rw [finish]
  refine handsFrames_perform_bind (by trivial) ?_
  intro stop
  split
  · exact handsFrames_aside (aside_setFailure _)
  refine handsFrames_perform_bind (by trivial) ?_
  intro again
  split
  · exact handsFrames_aside (aside_setFailure _)
  · trivial

theorem handsFrames_releaseAll (resources : List Resource) :
    HandsFrames passes (releaseAll resources) := by
  induction resources with
  | nil => trivial
  | cons resource resources ih => exact handsFrames_perform_bind (by trivial) fun _ => ih

theorem handsFrames_abandon (message : String) (resources : List Resource) :
    HandsFrames passes (abandon message resources) :=
  (handsFrames_aside (aside_setFailure message)).bind fun _ => handsFrames_releaseAll resources

theorem handsFrames_abandonUnlessStopped (message : String) (code : Int)
    (resources : List Resource) :
    HandsFrames passes (abandonUnlessStopped message code resources) :=
  (handsFrames_failUnlessStopped message code).bind fun _ => handsFrames_releaseAll resources

theorem handsFrames_prepareFrames (videoStreamIndex : Nat) :
    HandsFrames passes (prepareFrames videoStreamIndex layout passes) := by
  rw [prepareFrames]
  refine handsFrames_perform_bind (by trivial) ?_
  intro decodedFrame
  refine handsFrames_perform_bind (by trivial) ?_
  intro convertedFrame
  refine handsFrames_perform_bind (by trivial) ?_
  intro packet
  dsimp only
  split
  · exact handsFrames_abandon _ _
  refine handsFrames_perform_bind (by trivial) ?_
  intro result
  split
  · exact handsFrames_abandon _ _
  rw [process]
  refine handsFrames_perform_bind (by trivial) ?_
  intro _
  apply (handsFrames_readPackets videoStreamIndex "" passes).bind
  intro outcome
  exact (handsFrames_releaseAll _).bind fun _ => handsFrames_finish _ _

theorem handsFrames_run (authenticatedRtspUrl videoDevice : Bytes) :
    HandsFrames passes (run authenticatedRtspUrl videoDevice passes) := by
  rw [run]
  refine handsFrames_perform_bind (by trivial) ?_
  intro network
  split
  · exact handsFrames_aside (aside_setFailure _)
  refine handsFrames_perform_bind (by trivial) ?_
  intro context
  split
  · exact handsFrames_abandon _ _
  refine handsFrames_perform_bind (by trivial) ?_
  intro answer
  dsimp only
  split
  · exact handsFrames_abandonUnlessStopped _ _ _
  refine handsFrames_perform_bind (by trivial) ?_
  intro metadata
  split
  · exact handsFrames_abandonUnlessStopped _ _ _
  split
  · exact handsFrames_abandon _ _
  rw [openOutput]
  apply (handsFrames_aside (aside_openDecoder _)).bind
  intro opened
  split
  · exact handsFrames_abandon _ _
  refine handsFrames_perform_bind (by trivial) ?_
  intro device
  split
  · exact handsFrames_abandon _ _
  apply (handsFrames_aside (aside_configureV4L2Output passes)).bind
  intro configured
  cases configured with
  | error v4l2Error => exact handsFrames_abandon _ _
  | ok layout => exact handsFrames_prepareFrames _

/-- Where a run stands right behind a conversion. -/
theorem HandsFrames.handed {program stop : Worker α} (h : HandsFrames passes program)
    {front : List (Event WorkerOp WorkerOp.Res)} {frame : AVFrame} {converted : ConvertedFrame}
    (run : Runs program (front ++ [⟨.swsScale frame, (OUTPUT_HEIGHT, converted)⟩]) stop) :
    ∃ (layout : OutputLayout) (error : String) (next : Bool × String → Worker α),
      stop = (writePackedYuv420 converted layout error passes >>= next) := by
  induction front generalizing program with
  | nil =>
      obtain ⟨next, rfl, hrest⟩ := runs_cons_iff.mp run
      rw [runs_nil_iff.mp hrest]
      exact (h (OUTPUT_HEIGHT, converted)).1 rfl
  | cons event front ih =>
      obtain ⟨next, rfl, hrest⟩ := runs_cons_iff.mp run
      exact ih (h event.res).2 hrest

end Handing

section Runs

variable {passes : Nat} {trace : List (Event WorkerOp WorkerOp.Res)}

/-- The books stay in order whatever the decoder answers. -/
theorem Ledger.Ordered.step {whole : Prop} (state : Ledger) (op : WorkerOp) (res : op.Res)
    (after : Ledger) (h : state.Ordered) (hallowed : state.Allows whole op)
    (hanswer : pipelineWorld state op res after) : after.Ordered := by
  cases op with
  | loadStopRequested =>
      obtain ⟨_, rfl⟩ := hanswer
      exact ⟨h.packets, h.frames⟩
  | avcodecSendPacket packet =>
      change sends state packet res after at hanswer
      unfold sends at hanswer
      split at hanswer
      · exact hanswer.2 ▸ h
      split at hanswer
      · obtain ⟨pending, rfl⟩ := hanswer
        exact ⟨h.packets, h.frames⟩
      · obtain ⟨decoded, rfl⟩ := hanswer
        exact ⟨.inl hallowed.1, h.frames⟩
  | avcodecReceiveFrame =>
      change receives state res.1 res.2 after at hanswer
      unfold receives at hanswer
      split at hanswer
      · exact hanswer.2 ▸ h
      split at hanswer
      · obtain ⟨pending, rfl⟩ := hanswer
        exact ⟨h.packets, h.frames⟩
      · obtain ⟨rest, _, rfl⟩ := hanswer
        exact ⟨h.packets, .inr ⟨res.2, congrArg (· ++ [res.2]) hallowed.1.symm⟩⟩
  | avReadFrame =>
      have hbook : after = state.book .avReadFrame res := hanswer
      rw [hbook, Ledger.book]
      split
      · exact h
      · refine ⟨?_, h.frames⟩
        dsimp only
        split
        · exact .inr ⟨res.2, congrArg (· ++ [res.2]) hallowed.accepted.symm⟩
        · exact h.packets
  | swsScale frame =>
      have hbook : after = state.book (.swsScale frame) res := hanswer
      rw [hbook, Ledger.book]
      split
      · exact ⟨h.packets, .inl hallowed.1⟩
      · exact ⟨h.packets, h.frames⟩
  | swsGetCachedContext width height format =>
      have hbook : after = state.book (.swsGetCachedContext width height format) res := hanswer
      rw [hbook, Ledger.book]
      split <;> exact ⟨h.packets, h.frames⟩
  | avFrameMakeWritable =>
      have hbook : after = state.book .avFrameMakeWritable res := hanswer
      rw [hbook, Ledger.book]
      split <;> exact ⟨h.packets, h.frames⟩
  | write bytes =>
      have hbook : after = state.book (.write bytes) res := hanswer
      rw [hbook]
      cases res <;> exact ⟨h.packets, h.frames⟩
  | poll timeoutMs =>
      have hbook : after = state.book (.poll timeoutMs) res := hanswer
      rw [hbook]
      cases res <;> exact ⟨h.packets, h.frames⟩
  | release resource =>
      have hbook : after = state.book (.release resource) res := hanswer
      rw [hbook]
      cases resource <;> exact ⟨h.packets, h.frames⟩
  | _ =>
      subst hanswer
      exact ⟨h.packets, h.frames⟩

/-- Wherever a run of the worker stands. -/
structure Decodes (passes : Nat) (trace : List (Event WorkerOp WorkerOp.Res)) (stop : Worker Unit)
    (ledger : Ledger) : Prop where
  /-- Packets are accepted and frames passed on once and in their order. -/
  ordered : ledger.Ordered
  /-- The next operation is one that the ledger allows. -/
  allowed : ∀ op next, stop = .call op next → ledger.Allows True op
  /-- The retry loop is left after its first offer. -/
  unrefused : ∀ packet, ⟨.avcodecSendPacket packet, AVERROR_EAGAIN⟩ ∉ trace
  /-- A frame converted whole is passed to `writePackedYuv420`. -/
  handed : ∀ front frame converted,
    trace = front ++ [⟨.swsScale frame, (OUTPUT_HEIGHT, converted)⟩] →
      ∃ (layout : OutputLayout) (error : String) (next : Bool × String → Worker Unit),
        stop = (writePackedYuv420 converted layout error passes >>= next)
  /-- A run that is over has given everything back. -/
  settled : stop = .ret () → ledger.Settled

/-- The retry loop, entered with any frames left in the decoder, needs one pass
more than these, unless the device puts a write off for good. -/
def RetryEnds (passes : Nat) : Prop :=
  ∀ (layout : OutputLayout) (packet : AVPacket) (error : String) (fuel : Nat)
    (before after : Ledger) (trace : List (Event WorkerOp WorkerOp.Res)),
    before.Offers packet → before.pending.length < fuel → before.pending.length < passes →
    Runs (sendPacket layout passes packet error fuel) trace .unfinished →
    Lives pipelineWorld before trace after →
    after.writing ≠ none ∧ passes ≤ after.attempts

theorem retryEnds (passes : Nat) : RetryEnds passes := by
  intro layout packet error fuel before after trace hoffers hfuel hpasses run path
  have hsend := @upholds_sendPacket False passes layout before packet hoffers False.elim error fuel
    (.inr hfuel) (.inr hpasses)
  exact (Prog.Upholds.along hsend run path).resolve_left id

/-- Against a decoder under FFmpeg's contract, and with a stop at any moment, the
worker neither loses nor duplicates a packet or a frame. -/
theorem run_decodes {authenticatedRtspUrl videoDevice : Bytes} {stop : Worker Unit}
    {ledger : Ledger} (run : Runs (run authenticatedRtspUrl videoDevice passes) trace stop)
    (path : Lives pipelineWorld {} trace ledger) :
    Decodes passes trace stop ledger ∧ RetryEnds passes := by
  have hrun := @upholds_run passes authenticatedRtspUrl videoDevice
  have hstop := Prog.Upholds.along hrun run path
  refine ⟨?_, retryEnds passes⟩
  exact
    { ordered :=
        Prog.Upholds.keeps Ledger.Ordered.step hrun ⟨.inl rfl, .inl rfl⟩ run path
      allowed := by
        rintro op next rfl
        exact hstop.1
      unrefused := by
        intro packet hmem
        obtain ⟨before, next, hallowed, hanswer⟩ := Prog.Upholds.event hrun run path hmem
        have hempty : before.pending = [] := hallowed.2.2.2 trivial
        change sends before packet AVERROR_EAGAIN next at hanswer
        rw [sends, if_pos rfl] at hanswer
        exact hanswer.1 hempty
      handed := by
        rintro front frame converted rfl
        exact (handsFrames_run authenticatedRtspUrl videoDevice).handed run
      settled := by
        rintro rfl
        exact hstop }

theorem sends_accepted (before : Ledger) (packet : AVPacket) (decoded : List AVFrame) :
    sends before packet 0
      { before with
        pending := before.pending ++ decoded
        accepted := before.accepted ++ [packet] } := by
  rw [sends, if_neg (by decide), if_neg (by decide)]
  exact ⟨decoded, rfl⟩

theorem receives_frame {before : Ledger} {frame : AVFrame} {rest : List AVFrame}
    (h : before.pending = frame :: rest) :
    receives before 0 frame
      { before with
        pending := rest
        received := before.received ++ [frame]
        frameHeld := true } := by
  rw [receives, if_neg (by decide), if_neg (by decide)]
  exact ⟨rest, h, rfl⟩

def keyPacket : AVPacket := ⟨0, [1]⟩

def keyFrame : AVFrame := ⟨640, 480, 0, []⟩

def emptyPicture : ConvertedFrame := ⟨⟨[], 640⟩, ⟨[], 320⟩, ⟨[], 320⟩⟩

/-- One packet with one frame, and a stop when the frame is about to be written. -/
def stoppedRun : List (Event WorkerOp WorkerOp.Res) :=
  [⟨.avformatNetworkInit, (0 : Int)⟩, ⟨.avformatAllocContext, true⟩,
    ⟨.avformatOpenInput [], ((0 : Int), true)⟩,
    ⟨.avformatFindStreamInfo, ((0 : Int), [AVMediaType.video])⟩,
    ⟨.avcodecFindDecoder 0, true⟩, ⟨.avcodecAllocContext3, true⟩,
    ⟨.avcodecParametersToContext 0, (0 : Int)⟩, ⟨.avcodecOpen2, (0 : Int)⟩,
    ⟨.openDevice [], true⟩, ⟨.queryCapability, IoctlResult.done ⟨2, 0⟩⟩,
    ⟨.setFormat requestedFormat, IoctlResult.done requestedFormat⟩,
    ⟨.setParameters 1 OUTPUT_FPS, IoctlResult.done ()⟩,
    ⟨.avFrameAlloc, true⟩, ⟨.avFrameAlloc, true⟩, ⟨.avPacketAlloc, true⟩,
    ⟨.avFrameGetBuffer, (0 : Int)⟩, ⟨.storeState .running, ()⟩,
    ⟨.loadStopRequested, false⟩, ⟨.avReadFrame, ((0 : Int), keyPacket)⟩,
    ⟨.avcodecSendPacket keyPacket, (0 : Int)⟩, ⟨.avcodecReceiveFrame, ((0 : Int), keyFrame)⟩,
    ⟨.swsGetCachedContext 640 480 0, true⟩, ⟨.avFrameMakeWritable, (0 : Int)⟩,
    ⟨.swsScale keyFrame, ((480 : Int), emptyPicture)⟩,
    ⟨.loadStopRequested, true⟩, ⟨.release .decodedFrameData, ()⟩, ⟨.loadStopRequested, true⟩,
    ⟨.release .packetData, ()⟩, ⟨.loadStopRequested, true⟩,
    ⟨.release .scaler, ()⟩, ⟨.release .packet, ()⟩, ⟨.release .decodedFrame, ()⟩,
    ⟨.release .convertedFrame, ()⟩, ⟨.release .videoFd, ()⟩, ⟨.release .decoderContext, ()⟩,
    ⟨.release .format, ()⟩, ⟨.release .network, ()⟩,
    ⟨.loadStopRequested, true⟩, ⟨.loadStopRequested, true⟩]

/-- The books at its end. -/
def stoppedBooks : Ledger where
  stopRequested := true
  videoStreamIndex := some 0
  read := [keyPacket]
  accepted := [keyPacket]
  received := [keyFrame]
  passed := [keyFrame]

theorem runs_stoppedRun : Runs (run [] [] 2) stoppedRun (.ret ()) := by
  unfold stoppedRun
  iterate 39 apply Runs.step
  exact Runs.here _

theorem lives_stoppedRun : Lives pipelineWorld {} stoppedRun stoppedBooks := by
  have hload : ∀ (before : Ledger) (stop : Bool), (before.stopRequested = true → stop = true) →
      pipelineWorld before .loadStopRequested stop
        { before with
          stopRequested := stop
          writeFailed := false
          failed := before.failed || (before.writeFailed && !stop) } :=
    fun _ _ hmonotone => ⟨hmonotone, rfl⟩
  unfold stoppedRun
  iterate 17 apply Lives.step rfl
  apply Lives.step (hload _ false (by decide))
  apply Lives.step rfl
  apply Lives.step (sends_accepted _ keyPacket [keyFrame])
  apply Lives.step (receives_frame rfl)
  iterate 3 apply Lives.step rfl
  apply Lives.step (hload _ true fun _ => rfl)
  apply Lives.step rfl
  apply Lives.step (hload _ true fun _ => rfl)
  apply Lives.step rfl
  apply Lives.step (hload _ true fun _ => rfl)
  iterate 8 apply Lives.step rfl
  apply Lives.step (hload _ true fun _ => rfl)
  apply Lives.step (hload _ true fun _ => rfl)
  exact Lives.here _

theorem run_decodes_stopped :
    Decodes 2 stoppedRun (.ret ()) stoppedBooks ∧ RetryEnds 2 :=
  run_decodes runs_stoppedRun lives_stoppedRun

end Runs

end OpenCam.Linux.MediaPipeline
