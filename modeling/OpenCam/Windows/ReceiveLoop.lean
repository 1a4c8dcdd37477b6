import OpenCam.Bytes.Text
import OpenCam.Interaction.Ownership
import OpenCam.Windows.FrameScaler

/-!
`Receiver::Loop`: one connection to a stream, from its first FFmpeg call to its last. What the
loop holds and what it leaves behind, and how the reports of a connection follow from what it
has read and handed on.
-/

namespace OpenCam.Windows.RTSP

open Octets Interaction

section Program

inductive AVMediaType where
  | video
  | other
deriving DecidableEq, Repr

/-- What the loop looks at in an `AVPacket`. -/
structure AVPacket where
  streamIndex : Int
  size : Int
deriving DecidableEq, Repr

/-- The bit rate in megabits a second, before it is rounded to a `double`. -/
structure Stats where
  width : Int
  height : Int
  fps : Int
  bitrate : ℚ
deriving DecidableEq

/-- What FFmpeg hands out. -/
inductive StreamResource where
  | format
  | options
  | codecContext
  | frame
  | packet
  | packetData
deriving DecidableEq, Repr

inductive StreamOp where
  | avformatAllocContext
  | storeStopRequested (value : Bool)
  | getTimeMs
  | storeLastActivity (time : Int)
  | avDictSet (entries : List (Bytes × Bytes))
  | avformatOpenInput (url : Bytes)
  | avcodecFindDecoder
  | avcodecAllocContext3
  | avcodecParametersToContext (stream : Nat)
  -- the dimensions, the pixel format if there is none, and the threads
  | setCodec (width height : Int)
  | avcodecOpen2
  | avFrameAlloc
  | avPacketAlloc
  | steadyNow
  | loadIsRunning
  | avReadFrame
  | avcodecSendPacket (packet : AVPacket)
  | avcodecReceiveFrame
  | onFrameReceived (frame : Video.AVFrame)
  | onStatsReceived (stats : Stats)
  | release (resource : StreamResource)
deriving DecidableEq

/-- A null pointer is `false`, an FFmpeg result its code, beside what the call has filled in:
`avformat_open_input` leaves the streams and says whether options remain that nothing took. -/
@[reducible] def StreamOp.Res : StreamOp → Type
  | avformatAllocContext => Bool
  | getTimeMs => Int
  | avformatOpenInput _ => Int × List AVMediaType × Bool
  | avcodecFindDecoder => Bool
  | avcodecAllocContext3 => Bool
  | avcodecOpen2 => Int
  | avFrameAlloc => Bool
  | avPacketAlloc => Bool
  | steadyNow => Int
  | loadIsRunning => Bool
  | avReadFrame => Int × AVPacket
  | avcodecSendPacket _ => Int
  | avcodecReceiveFrame => Int × Video.AVFrame
  | _ => Unit

abbrev StreamProgram (α : Type) := Prog StreamOp StreamOp.Res α

abbrev StreamEvent := Event StreamOp StreamOp.Res

abbrev stream (op : StreamOp) : StreamProgram op.Res := Prog.perform op

/-- Going on with a null pointer is undefined: the program stops there. -/
def deref (pointer : Bool) : StreamProgram Unit :=
  if pointer then .ret () else .throw "null pointer"

def noteActivity : StreamProgram Unit := do
  let now ← stream .getTimeMs
  stream (.storeLastActivity now)

/-- The options of a connection. -/
def connectionOptions (protocol : Bytes) : List (Bytes × Bytes) :=
  [(ascii "rtsp_transport", protocol), (ascii "fflags", ascii "nobuffer"),
    (ascii "flags", ascii "low_delay"), (ascii "probesize", ascii "32768"),
    (ascii "analyzeduration", ascii "1000000")]

/-- The streams of the connection, if it is opened. -/
def OpenConnection (url protocol : Bytes) : StreamProgram (Option (List AVMediaType)) := do
  let ctx ← stream .avformatAllocContext
  deref ctx
  stream (.storeStopRequested false)
  noteActivity
  stream (.avDictSet (connectionOptions protocol))
  let (ret, streams, _) ← stream (.avformatOpenInput url)
  if ret ≠ 0 then .ret none
  else do
    noteActivity
    .ret (some streams)

/-- The first video stream, if there is one and its decoder is opened. -/
def FindVideoStream (streams : List AVMediaType) (width height : Int) :
    StreamProgram (Option Nat) :=
  match streams.findIdx? (· = .video) with
  | none => .ret none
  | some streamIdx => do
      match ← stream .avcodecFindDecoder with
      | false => .ret none
      | true => do
          let codecCtx ← stream .avcodecAllocContext3
          deref codecCtx
          stream (.avcodecParametersToContext streamIdx)
          stream (.setCodec width height)
          let opened ← stream .avcodecOpen2
          if opened < 0 then .ret none else .ret (some streamIdx)

/-- The accumulators, and the dimensions of the last frame. -/
structure Tally where
  byteAccumulator : Int
  frameAccumulator : Int
  lastStatsTime : Int
  width : Int
  height : Int
deriving DecidableEq, Repr

/-- The dimensions of a report are those of a frame, the wrong way round. -/
def Tally.counted (tally : Tally) (frame : Video.AVFrame) : Tally :=
  { tally with
    frameAccumulator := tally.frameAccumulator + 1
    width := frame.height
    height := frame.width }

/-- The tally behind a packet of the stream. -/
def Tally.weighed (tally : Tally) (packet : AVPacket) : Tally :=
  { tally with byteAccumulator := tally.byteAccumulator + packet.size }

/-- The tally behind a report. -/
def Tally.reported (tally : Tally) (now : Int) : Tally :=
  { tally with byteAccumulator := 0, frameAccumulator := 0, lastStatsTime := now }

/-- The callbacks that are set. -/
structure Listeners where
  frames : Bool
  stats : Bool
deriving DecidableEq, Repr

/-- `if (onFrameReceivedCallback) onFrameReceivedCallback(pFrame)`. -/
def handOn (listeners : Listeners) (frame : Video.AVFrame) : StreamProgram Unit :=
  if listeners.frames then stream (.onFrameReceived frame) else .ret ()

/-- The loop over the frames that the decoder has ready. -/
def receiveFrames (listeners : Listeners) (pFrame : Bool) : Nat → Tally → StreamProgram Tally
  | 0, _ => .unfinished
  | passes + 1, tally => do
      deref pFrame
      let (code, frame) ← stream .avcodecReceiveFrame
      if code ≠ 0 then .ret tally
      else do
        handOn listeners frame
        receiveFrames listeners pFrame passes (tally.counted frame)

/-- Whole milliseconds between two readings of the clock. -/
def milliseconds (earlier later : Int) : Int := (later - earlier).tdiv 1000000

/-- What a report says at a reading of the clock. -/
def Tally.stats (tally : Tally) (now : Int) : Stats where
  width := tally.width
  height := tally.height
  fps := tally.frameAccumulator.tdiv ((milliseconds tally.lastStatsTime now).tdiv 1000)
  bitrate := tally.byteAccumulator * 8 / 1000000 /
    (((milliseconds tally.lastStatsTime now).tdiv 1000 : Int) : ℚ)

/-- `if (onStatsReceivedCallback) onStatsReceivedCallback(stats)`. -/
def handStats (listeners : Listeners) (stats : Stats) : StreamProgram Unit :=
  if listeners.stats then stream (.onStatsReceived stats) else .ret ()

/-- A report, if a second has passed. -/
def reportStats (listeners : Listeners) (tally : Tally) : StreamProgram Tally := do
  let now ← stream .steadyNow
  if milliseconds tally.lastStatsTime now ≥ 1000 then do
    handStats listeners (tally.stats now)
    .ret (tally.reported now)
  else .ret tally

/-- A packet that has been read. -/
def takePacket (listeners : Listeners) (pFrame : Bool) (passes videoStreamIdx : Nat)
    (packet : AVPacket) (tally : Tally) : StreamProgram Tally :=
  if packet.streamIndex ≠ videoStreamIdx then .ret tally
  else do
    let tally := tally.weighed packet
    let sent ← stream (.avcodecSendPacket packet)
    if sent ≠ 0 then .ret tally
    else do
      let tally ← receiveFrames listeners pFrame passes tally
      reportStats listeners tally

/-- `while (isRunning)`. -/
def readPackets (listeners : Listeners) (pFrame pPacket : Bool) (passes videoStreamIdx : Nat) :
    Nat → Tally → StreamProgram Unit
  | 0, _ => .unfinished
  | fuel + 1, tally => do
      match ← stream .loadIsRunning with
      | false => .ret ()
      | true => do
          noteActivity
          deref pPacket
          let (code, packet) ← stream .avReadFrame
          if code < 0 then .ret ()
          else do
            noteActivity
            let tally ← takePacket listeners pFrame passes videoStreamIdx packet tally
            stream (.release .packetData)
            readPackets listeners pFrame pPacket passes videoStreamIdx fuel tally

def releaseAll : List StreamResource → StreamProgram Unit
  | [] => .ret ()
  | resource :: resources => do
      stream (.release resource)
      releaseAll resources

/-- Behind the decoder. -/
def decodeStream (listeners : Listeners) (passes videoStreamIdx : Nat) : StreamProgram Unit := do
  let pFrame ← stream .avFrameAlloc
  let pPacket ← stream .avPacketAlloc
  let lastStatsTime ← stream .steadyNow
  readPackets listeners pFrame pPacket passes videoStreamIdx passes ⟨0, 0, lastStatsTime, 0, 0⟩
  releaseAll [.frame, .packet, .codecContext, .format]

def Loop (listeners : Listeners) (url protocol : Bytes) (expectedWidth expectedHeight : Int)
    (passes : Nat) : StreamProgram Unit := do
  match ← OpenConnection url protocol with
  | none => .ret ()
  | some streams => do
      match ← FindVideoStream streams expectedWidth expectedHeight with
      | none => releaseAll [.format]
      | some videoStreamIdx => decodeStream listeners passes videoStreamIdx

end Program

section Observers

/-- Giving these back does nothing when they are null. -/
def StreamResource.nullable : StreamResource → Bool
  | .frame | .packet => true
  | _ => false

/-- What has to be gone when a resource is given back. -/
def StreamResource.contents : StreamResource → List StreamResource
  | .packet => [.packetData]
  | _ => []

/-- What no release follows: options that nothing has taken, and a decoder that has not opened. -/
structure Lost where
  options : Bool
  codecContext : Bool
deriving DecidableEq, Repr

/-- A context that cannot be opened is freed. The options are replaced by those that nothing has
taken, if any. -/
def streamDeal (_ : Lost) : (op : StreamOp) → op.Res → Deal StreamResource
  | .avformatAllocContext, answer => .granted .format answer
  | .avDictSet _, _ => { absent := [.options], takes := [.options] }
  | .avformatOpenInput _, (ret, _, remaining) =>
      { needs := [.format, .options]
        drops := (if ret ≠ 0 then [.format] else []) ++ if remaining then [] else [.options] }
  | .avcodecAllocContext3, answer => .granted .codecContext answer
  | .avcodecParametersToContext _, _ => { needs := [.format, .codecContext] }
  | .setCodec _ _, _ | .avcodecOpen2, _ => { needs := [.codecContext] }
  | .avFrameAlloc, answer => .granted .frame answer
  | .avPacketAlloc, answer => .granted .packet answer
  | .avReadFrame, (code, _) =>
      { Deal.granted .packetData (0 ≤ code) with needs := [.format, .packet] }
  | .avcodecSendPacket _, _ => { needs := [.codecContext, .packetData] }
  | .avcodecReceiveFrame, _ => { needs := [.codecContext, .frame] }
  | .onFrameReceived _, _ => { needs := [.frame] }
  | .release resource, _ =>
      { needs := if resource.nullable then [] else [resource], absent := resource.contents,
        drops := [resource] }
  | _, _ => {}

def streamPhase (lost : Lost) : (op : StreamOp) → op.Res → Lost
  | .avformatOpenInput _, (_, _, remaining) => { lost with options := remaining }
  | .avcodecOpen2, opened => { lost with codecContext := decide (opened < 0) }
  | _, _ => lost

def streamCustody : Custody StreamOp StreamOp.Res StreamResource Lost where
  deal := streamDeal
  phase := streamPhase
  fresh := by
    intro lost op res thing hthing
    cases op with
    | avDictSet entries => exact .inl hthing
    | avformatAllocContext | avcodecAllocContext3 | avFrameAlloc | avPacketAlloc | avReadFrame =>
        exact .inl (Deal.mem_granted hthing)
    | _ => cases hthing

/-- What has happened to a stream since its last report: the sizes of its packets, the frames
that were handed on, the dimensions of the last one, the reading of the clock behind which this
began. A frame that is received is handed on next, a report that is due comes next. -/
structure Account where
  video : Option Nat := none
  bytes : Int := 0
  frames : Int := 0
  width : Int := 0
  height : Int := 0
  since : Option Int := none
  inHand : Option Video.AVFrame := none
  due : Option Int := none

namespace Account

variable (listeners : Listeners) (account : Account)

/-- The whole seconds of a report. -/
def seconds (now : Int) : Int := (milliseconds (account.since.getD 0) now).tdiv 1000

/-- A report is of one second at least, and rounds the frames in a second down. It has the
dimensions of the last frame the wrong way round. -/
def Reports (now : Int) (stats : Stats) : Prop :=
  1 ≤ account.seconds now ∧ stats.width = account.height ∧ stats.height = account.width ∧
    stats.fps * account.seconds now ≤ account.frames ∧
    account.frames < (stats.fps + 1) * account.seconds now ∧
    stats.bitrate * 1000000 * account.seconds now = 8 * account.bytes

instance (now : Int) (stats : Stats) : Decidable (account.Reports now stats) :=
  inferInstanceAs (Decidable (_ ∧ _))

def reported (now : Int) : Account :=
  { account with bytes := 0, frames := 0, since := some now, due := none }

/-- A reading of the clock. -/
def tick (now : Int) : Account :=
  match account.since with
  | none => { account with since := some now }
  | some since =>
      if milliseconds since now ≥ 1000 then
        if listeners.stats then { account with due := some now } else account.reported now
      else account

def note : (op : StreamOp) → op.Res → Option Account
  | .avformatOpenInput _, (_, streams, _) =>
      some { account with video := streams.findIdx? (· = .video) }
  | .avReadFrame, (code, packet) =>
      some (if 0 ≤ code ∧ account.video.map Int.ofNat = some packet.streamIndex then
        { account with bytes := account.bytes + packet.size } else account)
  | .avcodecReceiveFrame, (code, frame) =>
      some (if code = 0 then
        { account with
          frames := account.frames + 1, width := frame.width, height := frame.height,
          inHand := if listeners.frames then some frame else none }
      else account)
  | .steadyNow, now => some (account.tick listeners now)
  | .onFrameReceived _, _ | .onStatsReceived _, _ => none
  | _, _ => some account

end Account

/-- Every received frame is handed on once and at once, and a report comes at the first reading
of the clock a second behind the last one, with what has happened since. -/
def accountMonitor (listeners : Listeners) : Monitor StreamOp StreamOp.Res Account
  | account, op, res =>
      match account.inHand, account.due with
      | some frame, _ =>
          if op = .onFrameReceived frame then some { account with inHand := none } else none
      | none, some now =>
          match op with
          | .onStatsReceived stats =>
              if account.Reports now stats then some (account.reported now) else none
          | _ => none
      | none, none => account.note listeners op res

/-- What both watch. -/
abbrev Watch : Type := ((StreamResource → Bool) × Lost) × Account

abbrev Watched {α : Type} (listeners : Listeners) (post : α → Watch → Prop)
    (program : StreamProgram α) (state : Watch) : Prop :=
  program.Follows (streamCustody.monitor.both (accountMonitor listeners)) post state

end Observers

section Decoding

variable {listeners : Listeners} {options pFrame pPacket : Bool} {lost : Lost}
  {videoStreamIdx : Nat} {tally : Tally}

/-- What is held while packets are read. -/
def decoding (options pFrame pPacket packetData : Bool) : StreamResource → Bool
  | .format | .codecContext => true
  | .options => options
  | .frame => pFrame
  | .packet => pPacket
  | .packetData => packetData

/-- The account that the accumulators keep. -/
def Tally.account (tally : Tally) (videoStreamIdx : Nat) : Account where
  video := some videoStreamIdx
  bytes := tally.byteAccumulator
  frames := tally.frameAccumulator
  width := tally.height
  height := tally.width
  since := some tally.lastStatsTime

/-- An operation of which only the account takes note. -/
theorem watched_note {α : Type} {post : α → Watch → Prop} {op : StreamOp}
    {next : op.Res → StreamProgram α} {held : (StreamResource → Bool) × Lost} {account : Account}
    (hstays : streamCustody.Stays held op)
    (hnext : ∀ res, ∃ after, accountMonitor listeners account op res = some after ∧
      Watched listeners post (next res) (held, after)) :
    Watched listeners post (stream op >>= next) (held, account) := by
  intro res
  obtain ⟨after, haccount, hwatched⟩ := hnext res
  exact ⟨_, Monitor.both_eq_some.mpr ⟨hstays res, haccount⟩, hwatched⟩

/-- An operation of which custody or account takes note. -/
theorem watched_step {α : Type} {post : α → Watch → Prop} {op : StreamOp}
    {next : op.Res → StreamProgram α} {held : StreamResource → Bool} {lost : Lost}
    {account : Account}
    (hready : ∀ res, (streamDeal lost op res).Ready held)
    (hnext : ∀ res, ∃ after, accountMonitor listeners account op res = some after ∧
      Watched listeners post (next res)
        (((streamDeal lost op res).after held, streamPhase lost op res), after)) :
    Watched listeners post (stream op >>= next) ((held, lost), account) := by
  intro res
  obtain ⟨after, haccount, hwatched⟩ := hnext res
  exact ⟨_, Monitor.both_eq_some.mpr ⟨Custody.monitor_eq_some.mpr ⟨hready res, rfl⟩, haccount⟩,
    hwatched⟩

/-- Where the decoder is left: the account is that of the accumulators again. -/
def Tallied (options pFrame pPacket : Bool) (lost : Lost) (videoStreamIdx : Nat) (tally : Tally)
    (watch : Watch) : Prop :=
  0 ≤ tally.frameAccumulator ∧
    watch = ((decoding options pFrame pPacket true, lost), tally.account videoStreamIdx)

/-- Nothing is to be handed on or reported first. -/
def Account.Quiet (account : Account) : Prop := account.inHand = none ∧ account.due = none

theorem accountMonitor_quiet {account : Account} {op : StreamOp} {res : op.Res}
    (hquiet : account.Quiet) :
    accountMonitor listeners account op res = account.note listeners op res := by
  simp only [accountMonitor, hquiet.1, hquiet.2]

theorem Tally.account_quiet : (tally.account videoStreamIdx).Quiet := ⟨rfl, rfl⟩

/-- A frame is handed on if anybody listens. -/
theorem watched_handOn {α : Type} {post : α → Watch → Prop} {next : Unit → StreamProgram α}
    (account : Account) (frame : Video.AVFrame) (hinHand : account.inHand = none)
    (hnext : Watched listeners post (next ())
      ((decoding options true pPacket true, lost), account)) :
    Watched listeners post (handOn listeners frame >>= next)
      ((decoding options true pPacket true, lost),
        { account with inHand := if listeners.frames then some frame else none }) := by
  have hsame : { account with inHand := none } = account := by rw [← hinHand]
  rw [handOn]
  cases listeners.frames with
  | false => simpa [hsame] using hnext
  | true =>
      have hstays : streamCustody.Stays (decoding options true pPacket true, lost)
          (.onFrameReceived frame) :=
        Custody.stays_of_needs (fun _ => rfl) (fun _ => rfl)
          (show ∀ thing ∈ [StreamResource.frame], _ from by simp [decoding])
      refine watched_note hstays fun _ => ⟨account, ?_, hnext⟩
      simp [accountMonitor, hsame]

theorem watched_receiveFrames (passes : Nat) {tally : Tally}
    (hframes : 0 ≤ tally.frameAccumulator) :
    Watched listeners (Tallied options pFrame pPacket lost videoStreamIdx)
      (receiveFrames listeners pFrame passes tally)
      ((decoding options pFrame pPacket true, lost), tally.account videoStreamIdx) := by
  induction passes generalizing tally with
  | zero => trivial
  | succ passes ih =>
      rw [receiveFrames]
      cases pFrame with
      | false => trivial
      | true =>
          have hstays : streamCustody.Stays (decoding options true pPacket true, lost)
              .avcodecReceiveFrame :=
            Custody.stays_of_needs (fun _ => rfl) (fun _ => rfl)
              (show ∀ thing ∈ [StreamResource.codecContext, .frame], _ from by simp [decoding])
          refine watched_note hstays ?_
          rintro ⟨code, frame⟩
          have hnote := @accountMonitor_quiet listeners (tally.account videoStreamIdx)
            .avcodecReceiveFrame (code, frame) Tally.account_quiet
          dsimp only
          by_cases hcode : code = 0
          · rw [Account.note, if_pos hcode] at hnote
            rw [if_neg (not_not.mpr hcode)]
            have hcounted := @ih (tally.counted frame) (Int.add_nonneg hframes (by decide))
            exact ⟨_, hnote, watched_handOn ((tally.counted frame).account videoStreamIdx) frame rfl
              hcounted⟩
          · rw [Account.note, if_neg hcode] at hnote
            rw [if_pos hcode]
            exact ⟨_, hnote, hframes, rfl⟩

/-- What a report says is so. -/
theorem reports_stats {now : Int} (hframes : 0 ≤ tally.frameAccumulator)
    (hsecond : milliseconds tally.lastStatsTime now ≥ 1000) :
    (tally.account videoStreamIdx).Reports now (tally.stats now) := by
  have hseconds : (tally.account videoStreamIdx).seconds now =
      (milliseconds tally.lastStatsTime now).tdiv 1000 := rfl
  have hone : 1 ≤ (milliseconds tally.lastStatsTime now).tdiv 1000 := by
    rw [Int.tdiv_eq_ediv_of_nonneg (by omega)]
    omega
  have hfps : (tally.stats now).fps =
      tally.frameAccumulator / (milliseconds tally.lastStatsTime now).tdiv 1000 :=
    Int.tdiv_eq_ediv_of_nonneg hframes
  refine ⟨hone, rfl, rfl, ?_, ?_, ?_⟩
  · rw [hseconds, hfps]
    exact Int.ediv_mul_le _ (by omega)
  · rw [hseconds, hfps]
    exact Int.lt_ediv_add_one_mul_self _ (by omega)
  · have hne : (((milliseconds tally.lastStatsTime now).tdiv 1000 : Int) : ℚ) ≠ 0 := by
      exact_mod_cast (show (milliseconds tally.lastStatsTime now).tdiv 1000 ≠ 0 by omega)
    rw [hseconds, Tally.stats, Tally.account]
    field_simp

theorem watched_handStats {now : Int} (hframes : 0 ≤ tally.frameAccumulator)
    (hsecond : milliseconds tally.lastStatsTime now ≥ 1000) :
    Watched listeners (Tallied options pFrame pPacket lost videoStreamIdx)
      (handStats listeners (tally.stats now) >>= fun _ => .ret (tally.reported now))
      ((decoding options pFrame pPacket true, lost),
        if listeners.stats then { tally.account videoStreamIdx with due := some now }
        else (tally.reported now).account videoStreamIdx) := by
  rw [handStats]
  cases listeners.stats with
  | false => exact ⟨le_refl 0, rfl⟩
  | true =>
      refine watched_note (Custody.stays_of_needs (fun _ => rfl) (fun _ => rfl) nofun)
        fun _ => ⟨(tally.reported now).account videoStreamIdx, ?_, le_refl 0, rfl⟩
      have hreports := @reports_stats videoStreamIdx tally now hframes hsecond
      exact if_pos hreports

theorem watched_reportStats (hframes : 0 ≤ tally.frameAccumulator) :
    Watched listeners (Tallied options pFrame pPacket lost videoStreamIdx)
      (reportStats listeners tally)
      ((decoding options pFrame pPacket true, lost), tally.account videoStreamIdx) := by
  rw [reportStats]
  refine watched_note (Custody.stays_of_needs (fun _ => rfl) (fun _ => rfl) nofun) fun now => ?_
  have hnote := @accountMonitor_quiet listeners (tally.account videoStreamIdx)
    .steadyNow now Tally.account_quiet
  by_cases hsecond : milliseconds tally.lastStatsTime now ≥ 1000
  · rw [if_pos hsecond]
    refine ⟨_, hnote, ?_⟩
    have htick : (tally.account videoStreamIdx).tick listeners now =
        if listeners.stats then { tally.account videoStreamIdx with due := some now }
        else (tally.reported now).account videoStreamIdx := if_pos hsecond
    rw [htick]
    exact watched_handStats hframes hsecond
  · rw [if_neg hsecond]
    refine ⟨_, hnote, hframes, ?_⟩
    have htick : (tally.account videoStreamIdx).tick listeners now =
        tally.account videoStreamIdx := if_neg hsecond
    rw [htick]

/-- A packet of the stream is counted before it is sent to the decoder. -/
theorem watched_takePacket (passes : Nat) (packet : AVPacket)
    (hframes : 0 ≤ tally.frameAccumulator) :
    Watched listeners (Tallied options pFrame pPacket lost videoStreamIdx)
      (takePacket listeners pFrame passes videoStreamIdx packet tally)
      ((decoding options pFrame pPacket true, lost),
        if packet.streamIndex = videoStreamIdx then (tally.weighed packet).account videoStreamIdx
        else tally.account videoStreamIdx) := by
  rw [takePacket]
  by_cases hstream : packet.streamIndex = videoStreamIdx
  · have hstays : streamCustody.Stays (decoding options pFrame pPacket true, lost)
        (.avcodecSendPacket packet) :=
      Custody.stays_of_needs (fun _ => rfl) (fun _ => rfl)
        (show ∀ thing ∈ [StreamResource.codecContext, .packetData], _ from by simp [decoding])
    rw [if_neg (not_not.mpr hstream), if_pos hstream]
    refine watched_note hstays fun sent => ⟨_, accountMonitor_quiet Tally.account_quiet, ?_⟩
    split
    · exact ⟨hframes, rfl⟩
    · refine (@watched_receiveFrames listeners options pFrame pPacket lost videoStreamIdx passes
        (tally.weighed packet) hframes).bind ?_
      rintro received _ ⟨hreceived, rfl⟩
      exact watched_reportStats hreceived
  · rw [if_pos hstream, if_neg hstream]
    exact ⟨hframes, rfl⟩

theorem watched_noteActivity {α : Type} {post : α → Watch → Prop} {next : Unit → StreamProgram α}
    {held : (StreamResource → Bool) × Lost} {account : Account}
    (hquiet : account.Quiet) (hnext : Watched listeners post (next ()) (held, account)) :
    Watched listeners post (noteActivity >>= next) (held, account) := by
  obtain ⟨things, lost⟩ := held
  have hstays : ∀ op, (∀ res, streamDeal lost op res = {}) →
      (∀ res, streamPhase lost op res = lost) →
      streamCustody.Stays (things, lost) op :=
    fun op hdeal hphase => Custody.stays_of_needs hdeal hphase nofun
  refine watched_note (hstays .getTimeMs (fun _ => rfl) fun _ => rfl)
    fun now => ⟨account, accountMonitor_quiet hquiet, ?_⟩
  exact watched_note (hstays (.storeLastActivity now) (fun _ => rfl) fun _ => rfl)
    fun _ => ⟨account, accountMonitor_quiet hquiet, hnext⟩

theorem note_read {code : Int} {packet : AVPacket} (hcode : 0 ≤ code) :
    (tally.account videoStreamIdx).note listeners .avReadFrame (code, packet) =
      some (if packet.streamIndex = videoStreamIdx then
        (tally.weighed packet).account videoStreamIdx
      else tally.account videoStreamIdx) := by
  have hvideo : (0 ≤ code ∧ (tally.account videoStreamIdx).video.map Int.ofNat =
      some packet.streamIndex) ↔ packet.streamIndex = videoStreamIdx := by
    simp [Tally.account, hcode, eq_comm]
  rw [Account.note]
  simp only [hvideo]
  rfl

/-- The packets are given back one by one. -/
theorem watched_readPackets (passes fuel : Nat) (hframes : 0 ≤ tally.frameAccumulator) :
    Watched listeners
      (fun _ watch => watch.1 = (decoding options pFrame pPacket false, lost) ∧ watch.2.Quiet)
      (readPackets listeners pFrame pPacket passes videoStreamIdx fuel tally)
      ((decoding options pFrame pPacket false, lost), tally.account videoStreamIdx) := by
  induction fuel generalizing tally with
  | zero => trivial
  | succ fuel ih =>
      rw [readPackets]
      refine watched_note (Custody.stays_of_needs (fun _ => rfl) (fun _ => rfl) nofun)
        fun running => ⟨_, accountMonitor_quiet Tally.account_quiet, ?_⟩
      cases running with
      | false => exact ⟨rfl, Tally.account_quiet⟩
      | true =>
          refine watched_noteActivity Tally.account_quiet ?_
          cases pPacket with
          | false => trivial
          | true =>
              refine watched_step (fun res => ?_) ?_
              · exact ⟨by simp [streamDeal, decoding],
                  by simp [streamDeal, Deal.granted, decoding]⟩
              rintro ⟨code, packet⟩
              have hread : (streamDeal lost .avReadFrame (code, packet)).after
                  (decoding options pFrame true false) =
                  decoding options pFrame true (decide (0 ≤ code)) := by
                funext thing
                by_cases hcode : 0 ≤ code <;> cases thing <;>
                  simp [streamDeal, Deal.granted, Deal.after, decoding, hcode]
              rw [hread]
              dsimp only
              by_cases hcode : 0 ≤ code
              · rw [decide_eq_true hcode, if_neg (not_lt.mpr hcode)]
                refine ⟨_, (accountMonitor_quiet Tally.account_quiet).trans (note_read hcode), ?_⟩
                refine watched_noteActivity (by split <;> exact Tally.account_quiet) ?_
                refine (watched_takePacket passes packet hframes).bind ?_
                rintro taken _ ⟨htaken, rfl⟩
                refine watched_step (fun _ => ?_) fun _ =>
                  ⟨_, accountMonitor_quiet Tally.account_quiet, ?_⟩
                · exact ⟨by simp [streamDeal, StreamResource.nullable, decoding],
                    by simp [streamDeal, StreamResource.contents]⟩
                have hreleased : (streamDeal lost (.release .packetData) ()).after
                    (decoding options pFrame true true) = decoding options pFrame true false := by
                  funext thing
                  cases thing <;> simp [streamDeal, Deal.after, decoding]
                change Watched _ _ _ (((streamDeal lost (.release .packetData) ()).after _, _), _)
                rw [hreleased]
                exact ih htaken
              · rw [decide_eq_false hcode, if_pos (not_le.mp hcode)]
                have hnote : (tally.account videoStreamIdx).note listeners .avReadFrame
                    (code, packet) = some (tally.account videoStreamIdx) :=
                  congrArg some (if_neg fun h => hcode h.1)
                exact ⟨_, (accountMonitor_quiet Tally.account_quiet).trans hnote, rfl,
                  Tally.account_quiet⟩

end Decoding

section Connection

variable {listeners : Listeners} {lost : Lost} {account : Account}

/-- Resources that are held, or may be null, are given back. By induction on them. -/
theorem watched_releaseAll {held : StreamResource → Bool} {resources : List StreamResource}
    (hheld : ∀ resource ∈ resources, resource.nullable = true ∨ held resource = true)
    (hcontents : ∀ resource ∈ resources, ∀ thing ∈ resource.contents, held thing = false)
    (hnodup : resources.Nodup) (hquiet : account.Quiet) :
    Watched listeners (fun _ watch => watch =
        ((fun thing => held thing && !decide (thing ∈ resources), lost), account))
      (releaseAll resources) ((held, lost), account) := by
  induction resources generalizing held with
  | nil =>
      have hsame : (fun thing => held thing && !decide (thing ∈ ([] : List StreamResource))) = held := by
        funext thing
        simp
      rw [hsame]
      rfl
  | cons resource resources ih =>
      obtain ⟨hnot, hnodup⟩ := List.nodup_cons.mp hnodup
      rw [List.forall_mem_cons] at hheld hcontents
      refine watched_step (fun _ => ⟨?_, hcontents.1⟩) fun _ =>
        ⟨_, accountMonitor_quiet hquiet, ?_⟩
      · intro thing hthing
        cases hnullable : resource.nullable with
        | true => simp [streamDeal, hnullable] at hthing
        | false =>
            simp only [streamDeal, hnullable] at hthing
            obtain rfl := List.mem_singleton.mp hthing
            exact hheld.1.resolve_left (by simp [hnullable])
      · have hafter : (streamDeal lost (.release resource) ()).after held =
            fun thing => held thing && !decide (thing = resource) := by
          funext thing
          simp [streamDeal, Deal.after]
        change Watched _ _ _ (((streamDeal lost (.release resource) ()).after held, lost), account)
        rw [hafter]
        refine (ih ?_ ?_ hnodup).mono ?_
        · intro other hother
          have hne : other ≠ resource := fun hsame => hnot (hsame ▸ hother)
          simpa [hne] using hheld.2 other hother
        · intro other hother thing hthing
          simp [hcontents.2 other hother thing hthing]
        · rintro _ _ rfl
          refine Prod.ext (Prod.ext ?_ rfl) rfl
          funext thing
          by_cases hthing : thing = resource <;> simp [hthing]

/-- What a connection leaves behind: the options that nothing has taken, and a decoder that has
not opened. -/
def leftBehind (lost : Lost) : StreamResource → Bool
  | .options => lost.options
  | .codecContext => lost.codecContext
  | _ => false

def LeftBehind (_ : Unit) (watch : Watch) : Prop := watch.1.1 = leftBehind watch.1.2

/-- What is held before the frame and the packet are asked for. -/
def connected (options codecContext : Bool) : StreamResource → Bool
  | .format => true
  | .options => options
  | .codecContext => codecContext
  | _ => false

/-- The account of a connection whose stream is found. -/
def fresh (videoStreamIdx : Nat) : Account := { video := some videoStreamIdx }

theorem watched_decodeStream (options : Bool) (passes videoStreamIdx : Nat) :
    Watched listeners LeftBehind (decodeStream listeners passes videoStreamIdx)
      ((connected options true, ⟨options, false⟩), fresh videoStreamIdx) := by
  have hframe : ∀ answer, (streamDeal ⟨options, false⟩ .avFrameAlloc answer).after
      (connected options true) = decoding options answer false false := by
    intro answer
    funext thing
    cases thing <;> cases answer <;> cases options <;> rfl
  have hpacket : ∀ frame answer, (streamDeal ⟨options, false⟩ .avPacketAlloc answer).after
      (decoding options frame false false) = decoding options frame answer false := by
    intro frame answer
    funext thing
    cases thing <;> cases answer <;> cases options <;> cases frame <;> rfl
  rw [decodeStream]
  refine watched_step (fun _ => ⟨nofun, by simp [streamDeal, Deal.granted, connected]⟩)
    fun pFrame => ⟨_, accountMonitor_quiet ⟨rfl, rfl⟩, ?_⟩
  rw [hframe pFrame]
  refine watched_step (fun _ => ⟨nofun, by simp [streamDeal, Deal.granted, decoding]⟩)
    fun pPacket => ⟨_, accountMonitor_quiet ⟨rfl, rfl⟩, ?_⟩
  change Watched _ _ _ (((streamDeal ⟨options, false⟩ .avPacketAlloc pPacket).after _, _), _)
  rw [hpacket pFrame pPacket]
  refine watched_note (Custody.stays_of_needs (fun _ => rfl) (fun _ => rfl) nofun)
    fun lastStatsTime => ⟨_, accountMonitor_quiet ⟨rfl, rfl⟩, ?_⟩
  change Watched _ _ _ ((decoding options pFrame pPacket false, ⟨options, false⟩),
    (⟨0, 0, lastStatsTime, 0, 0⟩ : Tally).account videoStreamIdx)
  refine (watched_readPackets passes passes (le_refl 0)).bind ?_
  rintro _ ⟨_, account⟩ ⟨rfl, hquiet⟩
  refine (watched_releaseAll ?_ ?_ (by decide) hquiet).mono ?_
  · simp [StreamResource.nullable, decoding]
  · simp [StreamResource.contents, decoding]
  · rintro _ _ rfl
    funext thing
    cases thing <;> simp [decoding, leftBehind]

/-- The account of a connection that is opened. -/
def openedAccount (streams : List AVMediaType) : Account :=
  { video := streams.findIdx? (· = .video) }

/-- A decoder that does not open stays allocated. -/
def Found (options : Bool) : Option Nat → Watch → Prop
  | some videoStreamIdx, watch =>
      watch = ((connected options true, ⟨options, false⟩), fresh videoStreamIdx)
  | none, watch => watch.2.Quiet ∧
      ∃ codecContext, watch.1 = (connected options codecContext, ⟨options, codecContext⟩)

theorem watched_FindVideoStream (options : Bool) (streams : List AVMediaType)
    (width height : Int) :
    Watched listeners (Found options) (FindVideoStream streams width height)
      ((connected options false, ⟨options, false⟩), openedAccount streams) := by
  have hquiet : (openedAccount streams).Quiet := ⟨rfl, rfl⟩
  unfold FindVideoStream
  cases hfound : streams.findIdx? (· = .video) with
  | none => exact ⟨hquiet, false, rfl⟩
  | some videoStreamIdx =>
      have haccount : openedAccount streams = fresh videoStreamIdx := by
        rw [openedAccount, hfound, fresh]
      rw [haccount] at hquiet ⊢
      dsimp only
      refine watched_note (Custody.stays_of_needs (fun _ => rfl) (fun _ => rfl) nofun)
        fun decoder => ⟨_, accountMonitor_quiet hquiet, ?_⟩
      cases decoder with
      | false => exact ⟨hquiet, false, rfl⟩
      | true =>
          refine watched_step (fun _ => ⟨nofun, by simp [streamDeal, Deal.granted, connected]⟩)
            fun codecCtx => ⟨_, accountMonitor_quiet hquiet, ?_⟩
          have hcontext : (streamDeal ⟨options, false⟩ .avcodecAllocContext3 codecCtx).after
              (connected options false) = connected options codecCtx := by
            funext thing
            cases thing <;> cases codecCtx <;> cases options <;> rfl
          rw [hcontext]
          cases codecCtx with
          | false => trivial
          | true =>
              have hboth : ∀ thing ∈ [StreamResource.format, .codecContext],
                  connected options true thing = true := by simp [connected]
              have hcodec : ∀ thing ∈ [StreamResource.codecContext],
                  connected options true thing = true := by simp [connected]
              refine watched_note (Custody.stays_of_needs (fun _ => rfl) (fun _ => rfl) hboth)
                fun _ => ⟨_, accountMonitor_quiet hquiet, ?_⟩
              refine watched_note (Custody.stays_of_needs (fun _ => rfl) (fun _ => rfl) hcodec)
                fun _ => ⟨_, accountMonitor_quiet hquiet, ?_⟩
              refine watched_step (fun _ => ⟨hcodec, nofun⟩) fun opened =>
                ⟨_, accountMonitor_quiet hquiet, ?_⟩
              have hopened : (streamDeal ⟨options, false⟩ .avcodecOpen2 opened).after
                  (connected options true) = connected options true := by
                funext thing
                cases thing <;> cases options <;> rfl
              change Watched _ _ _ (((streamDeal ⟨options, false⟩ .avcodecOpen2 opened).after _,
                ⟨options, decide (opened < 0)⟩), _)
              rw [hopened]
              by_cases hfailed : opened < 0
              · rw [if_pos hfailed, decide_eq_true hfailed]
                exact ⟨hquiet, true, rfl⟩
              · rw [if_neg hfailed, decide_eq_false hfailed]
                rfl

/-- Behind `OpenConnection`: a context that was opened is held, one that was not has been
freed. -/
def Opened : Option (List AVMediaType) → Watch → Prop
  | some streams, watch =>
      ∃ options, watch = ((connected options false, ⟨options, false⟩), openedAccount streams)
  | none, watch => LeftBehind () watch

theorem watched_OpenConnection (url protocol : Bytes) :
    Watched listeners Opened (OpenConnection url protocol)
      ((fun _ => false, ⟨false, false⟩), {}) := by
  have hquiet : Account.Quiet {} := ⟨rfl, rfl⟩
  rw [OpenConnection]
  refine watched_step (fun _ => ⟨nofun, fun _ _ => rfl⟩) fun ctx =>
    ⟨_, accountMonitor_quiet hquiet, ?_⟩
  cases ctx with
  | false => trivial
  | true =>
      have hcontext : (streamDeal ⟨false, false⟩ .avformatAllocContext true).after
          (fun _ => false) = connected false false := by
        funext thing
        cases thing <;> rfl
      rw [hcontext]
      refine watched_note (Custody.stays_of_needs (fun _ => rfl) (fun _ => rfl) nofun)
        fun _ => ⟨_, accountMonitor_quiet hquiet, ?_⟩
      refine watched_noteActivity hquiet ?_
      refine watched_step (fun _ => ⟨nofun, by simp [streamDeal, connected]⟩) fun _ =>
        ⟨_, accountMonitor_quiet hquiet, ?_⟩
      have hoptions : (streamDeal ⟨false, false⟩ (.avDictSet (connectionOptions protocol)) ()).after
          (connected false false) = connected true false := by
        funext thing
        cases thing <;> rfl
      change Watched _ _ _ (((streamDeal ⟨false, false⟩
        (.avDictSet (connectionOptions protocol)) ()).after _, ⟨false, false⟩), _)
      rw [hoptions]
      refine watched_step (fun _ => ⟨by simp [streamDeal, connected], nofun⟩) ?_
      rintro ⟨ret, streams, remaining⟩
      refine ⟨openedAccount streams, accountMonitor_quiet hquiet, ?_⟩
      by_cases hret : ret = 0
      · have hopened : (streamDeal ⟨false, false⟩ (.avformatOpenInput url)
            (ret, streams, remaining)).after (connected true false) = connected remaining false := by
          funext thing
          cases thing <;> cases remaining <;> simp [streamDeal, Deal.after, connected, hret]
        change Watched _ _ _ (((streamDeal ⟨false, false⟩ (.avformatOpenInput url)
          (ret, streams, remaining)).after _, ⟨remaining, false⟩), _)
        rw [hopened]
        dsimp only
        rw [if_neg (not_not.mpr hret)]
        exact watched_noteActivity ⟨rfl, rfl⟩ ⟨remaining, rfl⟩
      · have hrefused : (streamDeal ⟨false, false⟩ (.avformatOpenInput url)
            (ret, streams, remaining)).after (connected true false) =
            leftBehind ⟨remaining, false⟩ := by
          funext thing
          cases thing <;> cases remaining <;>
            simp [streamDeal, Deal.after, connected, leftBehind, hret]
        change Watched _ _ _ (((streamDeal ⟨false, false⟩ (.avformatOpenInput url)
          (ret, streams, remaining)).after _, ⟨remaining, false⟩), _)
        rw [hrefused]
        dsimp only
        rw [if_pos hret]
        rfl

/-- Whatever FFmpeg answers, and wherever the connection ends. -/
theorem watched_Loop (url protocol : Bytes) (expectedWidth expectedHeight : Int) (passes : Nat) :
    Watched listeners LeftBehind (Loop listeners url protocol expectedWidth expectedHeight passes)
      ((fun _ => false, ⟨false, false⟩), {}) := by
  rw [Loop]
  refine (watched_OpenConnection url protocol).bind ?_
  rintro (_ | streams) watch hopened
  · exact hopened
  obtain ⟨options, rfl⟩ := hopened
  refine (watched_FindVideoStream options streams expectedWidth expectedHeight).bind ?_
  rintro (_ | videoStreamIdx) watch hfound
  · obtain ⟨⟨held, lost⟩, account⟩ := watch
    obtain ⟨hquiet, codecContext, hheld⟩ := hfound
    obtain ⟨rfl, rfl⟩ := Prod.mk.inj hheld
    refine (watched_releaseAll ?_ ?_ (by decide) hquiet).mono ?_
    · simp [StreamResource.nullable, connected]
    · simp [StreamResource.contents]
    · rintro _ _ rfl
      funext thing
      cases thing <;> simp [connected, leftBehind]
  · obtain rfl := hfound
    exact watched_decodeStream options passes videoStreamIdx

end Connection

section Results

variable {listeners : Listeners} {url protocol : Bytes} {expectedWidth expectedHeight : Int}
  {passes : Nat} {trace : List StreamEvent} {stop : StreamProgram Unit}

/-- A connection that has not begun. -/
def unconnected : (StreamResource → Bool) × Lost := (fun _ => false, ⟨false, false⟩)

theorem loop_watched
    (run : Runs (Loop listeners url protocol expectedWidth expectedHeight passes) trace stop) :
    ∃ held lost account, streamCustody.monitor.after unconnected trace = some (held, lost) ∧
      (accountMonitor listeners).after {} trace = some account ∧
      (stop = .ret () → held = leftBehind lost) := by
  obtain ⟨⟨⟨held, lost⟩, account⟩, hafter, hstop⟩ :=
    (watched_Loop url protocol expectedWidth expectedHeight passes).along run
  obtain ⟨hcustody, haccount⟩ := Monitor.after_both hafter
  refine ⟨held, lost, account, hcustody, haccount, ?_⟩
  rintro rfl
  exact hstop

/-- A stream of one packet with one frame, behind which the clock is two seconds on. -/
def oneFrame (decoderOpens : Bool) : (op : StreamOp) → Nat → Option (op.Res × Nat)
  | .avformatOpenInput _, state => some (((0 : Int), [.video], true), state)
  | .avcodecOpen2, state => some (if decoderOpens then 0 else -1, state)
  | .avReadFrame, 0 => some (((0 : Int), ⟨0, 250000⟩), 1)
  | .avReadFrame, state => some ((-541478725, ⟨0, 0⟩), state)
  | .avcodecReceiveFrame, 1 => some (((0 : Int), ⟨640, 480, .rgb24, [], []⟩), 2)
  | .avcodecReceiveFrame, state => some ((-11, ⟨0, 0, .rgb24, [], []⟩), state)
  | .steadyNow, state => some ((state * 1000000000 : Int), state)
  | .avformatAllocContext, state | .avcodecFindDecoder, state | .avcodecAllocContext3, state
  | .avFrameAlloc, state | .avPacketAlloc, state | .loadIsRunning, state => some (true, state)
  | .getTimeMs, state => some ((0 : Int), state)
  | .avcodecSendPacket _, state => some ((0 : Int), state)
  | .storeStopRequested _, state | .storeLastActivity _, state | .avDictSet _, state
  | .avcodecParametersToContext _, state | .setCodec _ _, state | .onFrameReceived _, state
  | .onStatsReceived _, state | .release _, state => some ((), state)

def oneFrameExecution (decoderOpens : Bool) : Execution StreamOp StreamOp.Res Unit Nat :=
  (Loop ⟨true, true⟩ [] [] 0 0 3).execute (oneFrame decoderOpens) 0

/-- Whatever FFmpeg answers, a connection works on nothing that it does not hold and takes nothing
twice. When it returns it has given back all that it has taken, but for the options that nothing
took and a decoder that did not open. -/
theorem loop_gives_back
    (run : Runs (Loop listeners url protocol expectedWidth expectedHeight passes) trace stop) :
    ∃ held lost, streamCustody.monitor.after unconnected trace = some (held, lost) ∧
      (∀ resource, streamCustody.taken resource ⟨false, false⟩ trace =
        streamCustody.givenBack resource unconnected trace + (held resource).toNat) ∧
      (stop = .ret () → ∀ resource, held resource = leftBehind lost resource) := by
  obtain ⟨held, lost, account, hcustody, -, hreturned⟩ := loop_watched run
  refine ⟨held, lost, hcustody, Custody.balance hcustody, ?_⟩
  rintro hstop resource
  rw [hreturned hstop]

/-- A decoder that does not open is left behind. -/
theorem loop_gives_back_sample :
    ((streamCustody.monitor.after unconnected (oneFrameExecution false).trace).map
      fun after => (after.1 .codecContext, after.1 .format)) = some (true, false) ∧
    ∃ held lost, streamCustody.monitor.after unconnected (oneFrameExecution false).trace =
        some (held, lost) ∧
      (∀ resource, streamCustody.taken resource ⟨false, false⟩ (oneFrameExecution false).trace =
        streamCustody.givenBack resource unconnected (oneFrameExecution false).trace +
          (held resource).toNat) ∧
      ((oneFrameExecution false).rest = .ret () → ∀ resource,
        held resource = leftBehind lost resource) :=
  ⟨by decide +kernel, loop_gives_back (Prog.execute_runs (oneFrame false) _ 0)⟩

/-- The frame that the decoder has made. -/
def StreamEvent.decoded : StreamEvent → List Video.AVFrame
  | ⟨.avcodecReceiveFrame, (code, frame)⟩ => if code = 0 then [frame] else []
  | _ => []

/-- The frame that was handed to the callback. -/
def StreamEvent.handed : StreamEvent → List Video.AVFrame
  | ⟨.onFrameReceived frame, _⟩ => [frame]
  | _ => []

def decodedFrames (trace : List StreamEvent) : List Video.AVFrame :=
  trace.flatMap StreamEvent.decoded

def handedFrames (trace : List StreamEvent) : List Video.AVFrame :=
  trace.flatMap StreamEvent.handed

theorem inHand_tick (account : Account) (now : Int) :
    (account.tick listeners now).inHand = account.inHand := by
  rw [Account.tick]
  cases account.since with
  | none => rfl
  | some since =>
      dsimp only
      split
      · split <;> rfl
      · rfl

/-- A decoded frame comes into the hand, and only a callback takes it out. -/
theorem inHand_step {account after : Account} {op : StreamOp} {res : op.Res}
    (hlisteners : listeners.frames = true)
    (h : accountMonitor listeners account op res = some after) :
    account.inHand.toList ++ StreamEvent.decoded ⟨op, res⟩ =
      StreamEvent.handed ⟨op, res⟩ ++ after.inHand.toList := by
  cases hinHand : account.inHand with
  | some frame =>
      simp only [accountMonitor, hinHand] at h
      rw [Option.ite_none_right_eq_some] at h
      obtain ⟨rfl, hafter⟩ := h
      obtain rfl := Option.some.inj hafter
      rfl
  | none =>
  cases hdue : account.due with
  | some now =>
      simp only [accountMonitor, hinHand, hdue] at h
      split at h
      · rw [Option.ite_none_right_eq_some] at h
        obtain ⟨-, hafter⟩ := h
        obtain rfl := Option.some.inj hafter
        simp [StreamEvent.decoded, StreamEvent.handed, Account.reported, hinHand]
      · cases h
  | none =>
      rw [accountMonitor_quiet ⟨hinHand, hdue⟩] at h
      cases op with
      | onFrameReceived frame => cases h
      | onStatsReceived stats => cases h
      | avcodecReceiveFrame =>
          obtain ⟨code, frame⟩ := res
          obtain rfl := Option.some.inj h
          by_cases hcode : code = 0 <;>
            simp [StreamEvent.decoded, StreamEvent.handed, hcode, hlisteners, hinHand]
      | avReadFrame =>
          obtain ⟨code, packet⟩ := res
          obtain rfl := Option.some.inj h
          split <;> simp [StreamEvent.decoded, StreamEvent.handed, hinHand]
      | steadyNow =>
          obtain rfl := Option.some.inj h
          simp [StreamEvent.decoded, StreamEvent.handed, inHand_tick, hinHand]
      | _ =>
          obtain rfl := Option.some.inj h
          simp [StreamEvent.decoded, StreamEvent.handed, hinHand]

/-- By induction on the trace. -/
theorem inHand_run {account after : Account} (hlisteners : listeners.frames = true)
    (h : (accountMonitor listeners).after account trace = some after) :
    account.inHand.toList ++ decodedFrames trace =
      handedFrames trace ++ after.inHand.toList := by
  induction trace generalizing account with
  | nil =>
      obtain rfl := Option.some.inj h
      exact List.append_nil _
  | cons event rest ih =>
      obtain ⟨op, res⟩ := event
      obtain ⟨middle, hmiddle, hrest⟩ := Option.bind_eq_some_iff.mp h
      have hstep := inHand_step hlisteners hmiddle
      have hlater := ih hrest
      rw [decodedFrames, handedFrames, List.flatMap_cons, List.flatMap_cons, ← List.append_assoc,
        hstep, List.append_assoc, List.append_assoc]
      exact congrArg (StreamEvent.handed ⟨op, res⟩ ++ ·) hlater

/-- Behind what has led to it, every accepted report is exact. -/
theorem report_exact {before rest : List StreamEvent} {stats : Stats} {account : Account}
    (h : (accountMonitor listeners).after {} (before ++ ⟨.onStatsReceived stats, ()⟩ :: rest) =
      some account) :
    ∃ earlier now, (accountMonitor listeners).after {} before = some earlier ∧
      earlier.due = some now ∧ earlier.Reports now stats := by
  rw [Monitor.after_append] at h
  obtain ⟨earlier, hearlier, hrest⟩ := Option.bind_eq_some_iff.mp h
  obtain ⟨middle, hmiddle, -⟩ := Option.bind_eq_some_iff.mp hrest
  refine ⟨earlier, ?_⟩
  cases hinHand : earlier.inHand with
  | some frame => simp [accountMonitor, hinHand] at hmiddle
  | none =>
      cases hdue : earlier.due with
      | none =>
          rw [accountMonitor_quiet ⟨hinHand, hdue⟩] at hmiddle
          cases hmiddle
      | some now =>
          simp only [accountMonitor, hinHand, hdue] at hmiddle
          rw [Option.ite_none_right_eq_some] at hmiddle
          exact ⟨now, hearlier, rfl, hmiddle.1⟩

/-- The callbacks of a connection: every frame that the decoder makes is handed on once, in
order and at once, and at the first reading of the clock a second or more behind the last report
comes the next, with the frames and bytes since then. -/
theorem loop_reports
    (run : Runs (Loop listeners url protocol expectedWidth expectedHeight passes) trace stop) :
    ∃ account, (accountMonitor listeners).after {} trace = some account ∧
      (listeners.frames = true →
        decodedFrames trace = handedFrames trace ++ account.inHand.toList) ∧
      ∀ before stats rest, trace = before ++ ⟨.onStatsReceived stats, ()⟩ :: rest →
        ∃ earlier now, (accountMonitor listeners).after {} before = some earlier ∧
          earlier.due = some now ∧ earlier.Reports now stats := by
  obtain ⟨held, lost, account, -, haccount, -⟩ := loop_watched run
  refine ⟨account, haccount, fun hlisteners => inHand_run hlisteners haccount, ?_⟩
  rintro before stats rest rfl
  exact report_exact haccount

theorem loop_reports_sample :
    ((oneFrameExecution true).trace.map Event.op).contains
      (.onStatsReceived ⟨480, 640, 0, 1⟩) = true ∧
    ∃ account, (accountMonitor ⟨true, true⟩).after {} (oneFrameExecution true).trace =
      some account := by
  obtain ⟨account, haccount, -⟩ := loop_reports (Prog.execute_runs (oneFrame true)
    (Loop ⟨true, true⟩ [] [] 0 0 3) 0)
  exact ⟨by decide +kernel, account, haccount⟩

end Results

end OpenCam.Windows.RTSP
