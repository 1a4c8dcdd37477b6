import OpenCam.Android.TCPConnection
import OpenCam.Control.Socket
import OpenCam.Linux.ControlProtocol
import OpenCam.Windows.Application

/-!
`Server::TCPDoAccept`: the loop that accepts a device over the ADB tunnel, reads its descriptor
under one deadline and registers the connection. A connection that does not deliver a descriptor
in time is closed, and the loop goes on.
-/

namespace OpenCam.Windows

open Octets Interaction Control

namespace Server

section Program

/-- What `read_some` does: it returns a count, which may be zero, or it throws. -/
inductive ReadSomeResult (size : Nat) where
  | data (piece : Piece size)
  | empty
  | failed

/-- What the handler of `async_accept` is called with: a socket, or an error. -/
inductive AcceptOutcome where
  | accepted
  | failed
deriving DecidableEq, Repr

inductive ServerOp where
  | asyncAccept
  | acceptorIsOpen
  | steadyNow
  -- `select` on the socket, with the two fields of its `timeval`
  | select (seconds microseconds : Int)
  | readSome (size : Nat)
  -- `push_back`, `Connection::Read` and `OnDeviceConnected`
  | connect (descriptor : DeviceDescriptor)
  | closeSocket
deriving DecidableEq

/-- `select` answers whether its result is positive. -/
@[reducible] def ServerOp.Res : ServerOp → Type
  | asyncAccept => AcceptOutcome
  | acceptorIsOpen => Bool
  | steadyNow => Time
  | select _ _ => Bool
  | readSome size => ReadSomeResult size
  | connect _ => Unit
  | closeSocket => Unit

abbrev ServerProgram (α : Type) := Prog ServerOp ServerOp.Res α

abbrev ServerEvent := Event ServerOp ServerOp.Res

abbrev server (op : ServerOp) : ServerProgram op.Res := Prog.perform op

/-- `std::chrono::seconds(8)`. -/
def DESCRIPTOR_DEADLINE : Time := 8 * 1000000000

/-- The loop of `readExact`, with the bytes read so far. Every pass that goes on has read at
least one, so as many passes as bytes are enough. -/
def readExact (size : Nat) (deadline : Time) : Nat → Bytes → ServerProgram Bytes
  | 0, bytes => if bytes.length < size then .unfinished else .ret bytes
  | passes + 1, bytes =>
      if bytes.length < size then do
        let now ← server .steadyNow
        if now ≥ deadline then .throw "Descriptor timeout"
        else do
          let remaining := (deadline - now).tdiv 1000
          match ← server (.select (remaining.tdiv 1000000) (remaining.tmod 1000000)) with
          | false => .throw "Descriptor timeout"
          | true =>
              match ← server (.readSome (size - bytes.length)) with
              | .data piece => readExact size deadline passes (bytes ++ piece.val)
              | .empty => .throw "Descriptor EOF"
              | .failed => .throw "read_some"
      else .ret bytes

/-- `descriptorLength`. -/
def descriptorLength (lengthBytes : Bytes) : UInt32 :=
  ((lengthBytes.getD 0 0).toUInt32 <<< 24) ||| ((lengthBytes.getD 1 0).toUInt32 <<< 16) |||
    ((lengthBytes.getD 2 0).toUInt32 <<< 8) ||| (lengthBytes.getD 3 0).toUInt32

/-- The descriptor behind its length. -/
def readDescriptor (deadline : Time) : ServerProgram DeviceDescriptor := do
  let lengthBytes ← readExact 4 deadline 4 []
  let length := (descriptorLength lengthBytes).toNat
  if length = 0 ∨ length > 64 * 1024 then .throw "Invalid descriptor frame length"
  else do
    let received ← readExact length deadline length []
    match DeserializeDeviceDescriptor received with
    | .error _ => .throw "DeserializeDeviceDescriptor"
    | .ok descriptor => .ret descriptor

/-- The body of `try`. -/
def registerDevice : ServerProgram Unit := do
  let now ← server .steadyNow
  let descriptor ← readDescriptor (now + DESCRIPTOR_DEADLINE)
  server (.connect descriptor)

def handleAccepted : ServerProgram Unit := do
  match ← registerDevice.attempt with
  | .ok _ => .ret ()
  | .error _ => server .closeSocket

/-- The handler of `async_accept` up to its last condition. -/
def acceptPass : ServerProgram Unit := do
  match ← server .asyncAccept with
  | .accepted => handleAccepted
  | .failed => .ret ()

def TCPDoAccept : Nat → ServerProgram Unit
  | 0 => .unfinished
  | passes + 1 => do
      acceptPass
      match ← server .acceptorIsOpen with
      | true => TCPDoAccept passes
      | false => .ret ()

end Program

section Observations

/-- What an event has taken from the socket. -/
def ServerEvent.taken : ServerEvent → Bytes
  | ⟨.readSome _, .data piece⟩ => piece.val
  | _ => []

/-- What a run has taken from its socket. -/
def taken (trace : List ServerEvent) : Bytes := trace.flatMap ServerEvent.taken

@[simp] theorem taken_append (front back : List ServerEvent) :
    taken (front ++ back) = taken front ++ taken back := by simp [taken]

/-- A clock, or the socket. -/
def ServerOp.Reads : ServerOp → Prop
  | .steadyNow | .select _ _ | .readSome _ => True
  | _ => False

/-- The length of a descriptor and the descriptor. -/
def frameOf (body : Bytes) : Bytes := beBytes 4 body.length ++ body

/-- The bytes are one frame with a descriptor. -/
def Describes (bytes : Bytes) (descriptor : DeviceDescriptor) : Prop :=
  ∃ body, bytes = frameOf body ∧ DeserializeDeviceDescriptor body = .ok descriptor

/-- Every `select` comes right behind a reading of the clock that is before the deadline, and
does not wait beyond it. `last` is the reading behind which the trace begins. -/
def Paced (deadline : Time) : Option Time → List ServerEvent → Prop
  | _, [] => True
  | _, ⟨.steadyNow, now⟩ :: rest => Paced deadline (some now) rest
  | last, ⟨.select seconds microseconds, _⟩ :: rest =>
      (∃ now, last = some now ∧ now < deadline ∧
        now + (seconds * 1000000 + microseconds) * 1000 ≤ deadline) ∧ Paced deadline none rest
  | _, _ :: rest => Paced deadline none rest

/-- The reads of one socket: under the deadline that its acceptance has set, and never beyond
the frame that its first four bytes announce. -/
structure ReadUnder (start : Time) (reads : List ServerEvent) : Prop where
  paced : Paced (start + DESCRIPTOR_DEADLINE) none reads
  operations : ∀ event ∈ reads, event.op.Reads
  within : 4 ≤ (taken reads).length →
    (taken reads).length ≤ 4 + beNat ((taken reads).take 4)

theorem Paced.weaken {deadline : Time} {last : Option Time} {trace : List ServerEvent}
    (h : Paced deadline none trace) : Paced deadline last trace := by
  cases trace with
  | nil => trivial
  | cons event rest =>
      obtain ⟨op, res⟩ := event
      cases op with
      | select seconds microseconds =>
          obtain ⟨⟨now, hnone, -⟩, -⟩ := h
          cases hnone
      | _ => exact h

theorem Paced.append {deadline : Time} {last : Option Time} {front back : List ServerEvent}
    (hfront : Paced deadline last front) (hback : Paced deadline none back) :
    Paced deadline last (front ++ back) := by
  induction front generalizing last with
  | nil => exact hback.weaken
  | cons event front ih =>
      obtain ⟨op, res⟩ := event
      cases op with
      | select seconds microseconds => exact ⟨hfront.1, ih hfront.2⟩
      | _ => exact ih hfront

end Observations

section Reading

variable {size passes : Nat} {deadline start : Time} {bytes : Bytes} {trace : List ServerEvent}

/-- The timeout of a `select` that is begun before the deadline ends there at the latest. -/
theorem timeout_le {now limit : Int} (h : now < limit) :
    now + (((limit - now).tdiv 1000).tdiv 1000000 * 1000000 +
      ((limit - now).tdiv 1000).tmod 1000000) * 1000 ≤ limit := by
  have hsplit := Int.tdiv_mul_add_tmod ((limit - now).tdiv 1000) 1000000
  have hremaining := Int.tdiv_mul_add_tmod (limit - now) 1000
  have hnonneg : 0 ≤ (limit - now).tmod 1000 := Int.tmod_nonneg _ (sub_nonneg.mpr h.le)
  omega

/-- What a run of `readExact` has done, wherever it stands. -/
structure ReadsExactly (size : Nat) (deadline : Time) (bytes : Bytes) (trace : List ServerEvent)
    (stop : ServerProgram Bytes) : Prop where
  paced : Paced deadline none trace
  operations : ∀ event ∈ trace, event.op.Reads
  within : (bytes ++ taken trace).length ≤ size
  returned : ∀ all, stop = .ret all ↔ all = bytes ++ taken trace ∧ all.length = size

/-- A run that has not read everything has not returned. -/
theorem ReadsExactly.missing {stop : ServerProgram Bytes} (hpaced : Paced deadline none trace)
    (hoperations : ∀ event ∈ trace, event.op.Reads) (hmissing : (bytes ++ taken trace).length < size)
    (hstop : ∀ all, stop ≠ .ret all) : ReadsExactly size deadline bytes trace stop where
  paced := hpaced
  operations := hoperations
  within := hmissing.le
  returned all := by
    refine ⟨fun h => absurd h (hstop all), ?_⟩
    rintro ⟨rfl, hlength⟩
    exact absurd hlength hmissing.ne

theorem ReadsExactly.full (hbytes : bytes.length = size) :
    ReadsExactly size deadline bytes [] (.ret bytes) where
  paced := trivial
  operations := by simp
  within := by rw [List.length_append, hbytes]; rfl
  returned all := by
    rw [Prog.ret.injEq, eq_comm, show taken [] = [] from rfl, List.append_nil]
    exact ⟨fun h => ⟨h, h ▸ hbytes⟩, And.left⟩

/-- By induction on the passes, each of which has room for one byte more. -/
theorem readExact_runs {stop : ServerProgram Bytes} (hbytes : bytes.length ≤ size)
    (hpasses : size ≤ bytes.length + passes)
    (run : Runs (readExact size deadline passes bytes) trace stop) :
    ReadsExactly size deadline bytes trace stop := by
  induction passes generalizing bytes trace with
  | zero =>
      unfold readExact at run
      rw [if_neg (by omega)] at run
      obtain ⟨rfl, rfl⟩ := runs_ret_iff.mp run
      exact .full (by omega)
  | succ passes ih =>
      unfold readExact at run
      split at run
      swap
      · obtain ⟨rfl, rfl⟩ := runs_ret_iff.mp run
        exact .full (by omega)
      next hless =>
      have hmissing : ∀ {events : List ServerEvent}, taken events = [] →
          (bytes ++ taken events).length < size := by
        intro events hnone
        rwa [hnone, List.append_nil]
      rcases runs_perform_bind_iff.mp run with ⟨rfl, rfl⟩ | ⟨now, rest, rfl, hrest⟩
      · exact .missing trivial (by simp) (hmissing rfl) (by simp)
      split at hrest
      · obtain ⟨rfl, rfl⟩ := runs_throw_iff.mp hrest
        exact .missing trivial (by simp [ServerOp.Reads]) (hmissing rfl) (by simp)
      next hnow =>
      have hbefore := not_le.mp hnow
      rcases runs_perform_bind_iff.mp hrest with ⟨rfl, rfl⟩ | ⟨ready, rest, rfl, hready⟩
      · exact .missing trivial (by simp [ServerOp.Reads]) (hmissing rfl) (by simp)
      have hwait : ∀ {events : List ServerEvent}, Paced deadline none events →
          Paced deadline none (⟨.steadyNow, now⟩ :: ⟨.select
            (((deadline - now).tdiv 1000).tdiv 1000000)
            (((deadline - now).tdiv 1000).tmod 1000000), ready⟩ :: events) :=
        fun hevents => ⟨⟨now, rfl, hbefore, timeout_le hbefore⟩, hevents⟩
      cases ready with
      | false =>
          obtain ⟨rfl, rfl⟩ := runs_throw_iff.mp hready
          exact .missing (hwait trivial) (by simp [ServerOp.Reads]) (hmissing rfl) (by simp)
      | true =>
          rcases runs_perform_bind_iff.mp hready with ⟨rfl, rfl⟩ | ⟨result, rest, rfl, hresult⟩
          · exact .missing (hwait trivial) (by simp [ServerOp.Reads]) (hmissing rfl) (by simp)
          cases result with
          | empty =>
              obtain ⟨rfl, rfl⟩ := runs_throw_iff.mp hresult
              exact .missing (hwait trivial) (by simp [ServerOp.Reads]) (hmissing rfl) (by simp)
          | failed =>
              obtain ⟨rfl, rfl⟩ := runs_throw_iff.mp hresult
              exact .missing (hwait trivial) (by simp [ServerOp.Reads]) (hmissing rfl) (by simp)
          | data piece =>
              obtain ⟨hpiece, hfits⟩ := piece.property
              have hpositive := List.length_pos_of_ne_nil hpiece
              obtain ⟨hpaced, hoperations, hwithin, hreturned⟩ := ih
                (by rw [List.length_append]; omega) (by rw [List.length_append]; omega) hresult
              rw [List.append_assoc] at hwithin
              refine ⟨hwait hpaced, ?_, hwithin, fun all => ?_⟩
              · simp only [List.forall_mem_cons]
                exact ⟨trivial, trivial, trivial, hoperations⟩
              · rw [hreturned all, List.append_assoc]
                rfl

/-- The length is put together as that of a control frame. -/
theorem descriptorLength_eq {lengthBytes : Bytes} (h : lengthBytes.length = 4) :
    (descriptorLength lengthBytes).toNat = beNat lengthBytes := by
  match lengthBytes, h with
  | [first, second, third, fourth], _ =>
      exact Linux.headerSize_eq ⟨[0, 0, 0, 0, 0, 0, first, second, third, fourth], rfl⟩

theorem frameOf_length (body : Bytes) : (frameOf body).length = 4 + body.length := by
  rw [frameOf, List.length_append, beBytes_length]

/-- A descriptor has at least one byte, and its length fits the limit. -/
theorem descriptor_length {body : Bytes} {descriptor : DeviceDescriptor}
    (h : DeserializeDeviceDescriptor body = .ok descriptor) :
    body.length ≠ 0 ∧ body.length ≤ 64 * 1024 := by
  constructor
  · intro hempty
    rw [List.length_eq_zero_iff.mp hempty] at h
    cases h
  · by_contra hlong
    have hmax : MAX_MESSAGE = 64 * 1024 := rfl
    rw [DeserializeDeviceDescriptor, if_pos (by omega)] at h
    cases h

/-- What a run of `readDescriptor` has done: it returns a descriptor exactly when it has read
the whole frame of one. -/
structure ReadsDescriptor (deadline : Time) (trace : List ServerEvent)
    (stop : ServerProgram DeviceDescriptor) : Prop where
  paced : Paced deadline none trace
  operations : ∀ event ∈ trace, event.op.Reads
  within : 4 ≤ (taken trace).length → (taken trace).length ≤ 4 + beNat ((taken trace).take 4)
  returned : ∀ descriptor, stop = .ret descriptor ↔ Describes (taken trace) descriptor

/-- Bytes that are not yet a frame, or not one with a descriptor. -/
theorem ReadsDescriptor.missing {stop : ServerProgram DeviceDescriptor}
    (hpaced : Paced deadline none trace) (hoperations : ∀ event ∈ trace, event.op.Reads)
    (hwithin : 4 ≤ (taken trace).length →
      (taken trace).length ≤ 4 + beNat ((taken trace).take 4))
    (hstop : ∀ descriptor, stop ≠ .ret descriptor)
    (hmissing : ∀ body descriptor, DeserializeDeviceDescriptor body = .ok descriptor →
      taken trace ≠ frameOf body) : ReadsDescriptor deadline trace stop where
  paced := hpaced
  operations := hoperations
  within := hwithin
  returned descriptor := by
    refine ⟨fun h => absurd h (hstop descriptor), ?_⟩
    rintro ⟨body, hframe, hbody⟩
    exact absurd hframe (hmissing body descriptor hbody)

/-- The fields of a frame with a descriptor. -/
theorem frameOf_fields {lengthBytes rest body : Bytes} {descriptor : DeviceDescriptor}
    (hlength : lengthBytes.length = 4)
    (hbody : DeserializeDeviceDescriptor body = .ok descriptor)
    (h : lengthBytes ++ rest = frameOf body) : beNat lengthBytes = body.length ∧ rest = body := by
  obtain ⟨rfl, rfl⟩ := List.append_inj h (hlength.trans (beBytes_length 4 _).symm)
  have hshort := (descriptor_length hbody).2
  exact ⟨beNat_beBytes (by omega), rfl⟩

theorem readDescriptor_runs {stop : ServerProgram DeviceDescriptor}
    (run : Runs (readDescriptor deadline) trace stop) : ReadsDescriptor deadline trace stop := by
  rcases runs_bind_iff.mp run with ⟨middle, hmiddle, hvalue, rfl⟩ |
    ⟨lengthBytes, front, back, rfl, hfront, hback⟩
  · obtain ⟨hpaced, hoperations, hwithin, hreturned⟩ :=
      readExact_runs (Nat.zero_le 4) (Nat.le_refl 4) hmiddle
    rw [List.nil_append] at hwithin
    have hless : (taken trace).length < 4 := by
      refine lt_of_le_of_ne hwithin fun hfull => ?_
      exact hvalue _ ((hreturned _).mpr ⟨rfl, hfull⟩)
    refine .missing hpaced hoperations (fun h => absurd h (by omega)) ?_ ?_
    · intro descriptor hstop
      cases middle with
      | ret value => exact hvalue value rfl
      | throw error => cases hstop
      | unfinished => cases hstop
      | call op next => cases hstop
    · rintro body descriptor - hframe
      rw [hframe, frameOf_length] at hless
      omega
  obtain ⟨hpaced, hoperations, -, hreturned⟩ :=
    readExact_runs (Nat.zero_le 4) (Nat.le_refl 4) hfront
  obtain ⟨hbytes, hlength⟩ := (hreturned lengthBytes).mp rfl
  rw [List.nil_append] at hbytes
  have htaken : ∀ rest : List ServerEvent, taken (front ++ rest) = lengthBytes ++ taken rest := by
    intro rest
    rw [taken_append, hbytes]
  have hannounced : ∀ rest : List ServerEvent,
      beNat ((taken (front ++ rest)).take 4) = (descriptorLength lengthBytes).toNat := by
    intro rest
    rw [htaken, List.take_left' hlength, descriptorLength_eq hlength]
  dsimp only at hback
  split at hback
  · obtain ⟨rfl, rfl⟩ := runs_throw_iff.mp hback
    rw [List.append_nil]
    refine .missing hpaced hoperations ?_ (by simp) ?_
    · intro _
      rw [← hbytes, hlength]
      exact Nat.le_add_right 4 _
    intro body descriptor hbody hframe
    rw [← hbytes] at hframe
    have hempty := congrArg List.length hframe
    rw [frameOf_length, hlength] at hempty
    exact (descriptor_length hbody).1 (by omega)
  rcases runs_bind_iff.mp hback with ⟨middle, hmiddle, hvalue, rfl⟩ |
    ⟨received, first, last, rfl, hfirst, hlast⟩
  · obtain ⟨hpaced', hoperations', hwithin', hreturned'⟩ :=
      readExact_runs (Nat.zero_le _) (by simp) hmiddle
    rw [List.nil_append] at hwithin'
    have hless : (taken back).length < (descriptorLength lengthBytes).toNat := by
      refine lt_of_le_of_ne hwithin' fun hfull => ?_
      exact hvalue _ ((hreturned' _).mpr ⟨rfl, hfull⟩)
    refine .missing (hpaced.append hpaced') ?_ ?_ ?_ ?_
    · exact List.forall_mem_append.mpr ⟨hoperations, hoperations'⟩
    · intro _
      rw [hannounced, htaken, List.length_append]
      omega
    · intro descriptor hstop
      cases middle with
      | ret value => exact hvalue value rfl
      | throw error => cases hstop
      | unfinished => cases hstop
      | call op next => cases hstop
    · intro body descriptor hbody hframe
      rw [htaken] at hframe
      obtain ⟨hsize, hrest⟩ := frameOf_fields hlength hbody hframe
      rw [hrest, descriptorLength_eq hlength, hsize] at hless
      exact absurd hless (lt_irrefl _)
  · obtain ⟨hpaced', hoperations', -, hreturned'⟩ :=
      readExact_runs (Nat.zero_le _) (by simp) hfirst
    obtain ⟨hreceived, hsize⟩ := (hreturned' received).mp rfl
    rw [List.nil_append] at hreceived
    have hpaced'' := hpaced.append hpaced'
    have hoperations'' := List.forall_mem_append.mpr ⟨hoperations, hoperations'⟩
    have hwithin : 4 ≤ (taken (front ++ first)).length → (taken (front ++ first)).length ≤
        4 + beNat ((taken (front ++ first)).take 4) := by
      intro _
      rw [hannounced, htaken, List.length_append, ← hreceived]
      omega
    have hbody : ∀ body descriptor, DeserializeDeviceDescriptor body = .ok descriptor →
        taken (front ++ first) = frameOf body → received = body := by
      intro body descriptor hbody hframe
      rw [htaken] at hframe
      rw [hreceived, (frameOf_fields hlength hbody hframe).2]
    cases hparsed : DeserializeDeviceDescriptor received with
    | error fault =>
        rw [hparsed] at hlast
        obtain ⟨rfl, rfl⟩ := runs_throw_iff.mp hlast
        rw [List.append_nil]
        refine .missing hpaced'' hoperations'' hwithin (by simp) ?_
        intro body descriptor hdescriptor hframe
        obtain rfl := hbody body descriptor hdescriptor hframe
        rw [hparsed] at hdescriptor
        cases hdescriptor
    | ok parsed =>
        rw [hparsed] at hlast
        obtain ⟨rfl, rfl⟩ := runs_ret_iff.mp hlast
        rw [List.append_nil]
        refine ⟨hpaced'', hoperations'', hwithin, fun descriptor => ?_⟩
        rw [Prog.ret.injEq]
        constructor
        · rintro rfl
          refine ⟨received, ?_, hparsed⟩
          have hfield : beBytes 4 received.length = lengthBytes := by
            rw [hsize, descriptorLength_eq hlength, ← hlength, beBytes_beNat]
          rw [htaken, frameOf, hfield, hreceived]
        · rintro ⟨body, hframe, hdescriptor⟩
          obtain rfl := hbody body descriptor hdescriptor hframe
          exact Except.ok.inj (hparsed.symm.trans hdescriptor)

end Reading

section Serving

variable {passes : Nat} {trace : List ServerEvent}

/-- All that the server does with one call of its handler. -/
inductive Settled : List ServerEvent → Prop where
  | refused : Settled [⟨.asyncAccept, .failed⟩]
  | connected {start : Time} {reads : List ServerEvent} {descriptor : DeviceDescriptor}
      (under : ReadUnder start reads) (describes : Describes (taken reads) descriptor) :
      Settled (⟨.asyncAccept, .accepted⟩ :: ⟨.steadyNow, start⟩ ::
        (reads ++ [⟨.connect descriptor, ()⟩]))
  | closed {start : Time} {reads : List ServerEvent} (under : ReadUnder start reads)
      (nothing : ∀ descriptor, ¬ Describes (taken reads) descriptor) :
      Settled (⟨.asyncAccept, .accepted⟩ :: ⟨.steadyNow, start⟩ :: (reads ++ [⟨.closeSocket, ()⟩]))

/-- What it has done of that so far. -/
inductive Handling : List ServerEvent → Prop where
  | waiting : Handling []
  | accepted : Handling [⟨.asyncAccept, .accepted⟩]
  | reading {start : Time} {reads : List ServerEvent} (under : ReadUnder start reads) :
      Handling (⟨.asyncAccept, .accepted⟩ :: ⟨.steadyNow, start⟩ :: reads)
  | settled {trace : List ServerEvent} (h : Settled trace) : Handling trace

/-- The calls of the handler that the server has behind it. -/
inductive Served : List ServerEvent → Prop where
  | none : Served []
  | next {front rest : List ServerEvent} (first : Settled front) (isOpen : Bool)
      (later : Served rest) : Served (front ++ ⟨.acceptorIsOpen, isOpen⟩ :: rest)

/-- An accepted socket up to the decision about it: where the run stands, or how it ended. -/
theorem registerDevice_runs {stop : ServerProgram Unit} (run : Runs registerDevice trace stop) :
    trace = [] ∧ (∀ result, stop ≠ .ret result) ∧ (∀ error, stop ≠ .throw error) ∨
    ∃ start reads last, trace = ⟨.steadyNow, start⟩ :: (reads ++ last) ∧ ReadUnder start reads ∧
      ((last = [] ∧ (∀ result, stop ≠ .ret result) ∧
        ((∃ error, stop = .throw error) → ∀ descriptor, ¬ Describes (taken reads) descriptor)) ∨
      ∃ descriptor, last = [⟨.connect descriptor, ()⟩] ∧ stop = .ret () ∧
        Describes (taken reads) descriptor) := by
  rcases runs_perform_bind_iff.mp run with ⟨rfl, rfl⟩ | ⟨start, rest, rfl, hrest⟩
  · exact .inl ⟨rfl, by simp, by simp⟩
  refine .inr ⟨start, ?_⟩
  rcases runs_bind_iff.mp hrest with ⟨middle, hmiddle, hvalue, rfl⟩ |
    ⟨descriptor, reads, back, rfl, hreads, hback⟩
  · have h := readDescriptor_runs hmiddle
    refine ⟨rest, [], by rw [List.append_nil], ⟨h.paced, h.operations, h.within⟩,
      .inl ⟨rfl, ?_, ?_⟩⟩
    · intro result hstop
      cases middle with
      | ret value => exact hvalue value rfl
      | throw error => cases hstop
      | unfinished => cases hstop
      | call op next => cases hstop
    · rintro - descriptor hdescribes
      exact hvalue descriptor ((h.returned descriptor).mpr hdescribes)
  · have h := readDescriptor_runs hreads
    have hdescribes := (h.returned descriptor).mp rfl
    rcases runs_call_iff.mp hback with ⟨rfl, rfl⟩ | ⟨_, last, rfl, hlast⟩
    · refine ⟨reads, [], rfl, ⟨h.paced, h.operations, h.within⟩, .inl ⟨rfl, by simp, ?_⟩⟩
      rintro ⟨error, herror⟩
      cases herror
    · obtain ⟨rfl, rfl⟩ := runs_ret_iff.mp hlast
      exact ⟨reads, _, rfl, ⟨h.paced, h.operations, h.within⟩,
        .inr ⟨descriptor, rfl, rfl, hdescribes⟩⟩

theorem acceptPass_runs {stop : ServerProgram Unit} (run : Runs acceptPass trace stop) :
    Handling trace ∧ (stop = .ret () → Settled trace) ∧ ∀ error, stop ≠ .throw error := by
  rcases runs_perform_bind_iff.mp run with ⟨rfl, rfl⟩ | ⟨outcome, rest, rfl, hrest⟩
  · exact ⟨.waiting, by simp, by simp⟩
  cases outcome with
  | failed =>
      obtain ⟨rfl, rfl⟩ := runs_ret_iff.mp hrest
      exact ⟨.settled .refused, fun _ => .refused, by simp⟩
  | accepted =>
      rcases runs_bind_iff.mp hrest with ⟨middle, hmiddle, hvalue, rfl⟩ |
        ⟨result, front, back, rfl, hfront, hback⟩
      · obtain ⟨body, hbody, rfl⟩ := runs_attempt_iff.mp hmiddle
        have hhandling : Handling (⟨.asyncAccept, .accepted⟩ :: rest) := by
          rcases registerDevice_runs hbody with ⟨rfl, -⟩ |
            ⟨start, reads, last, rfl, hunder, ⟨rfl, -⟩ | ⟨descriptor, rfl, rfl, -⟩⟩
          · exact .accepted
          · rw [List.append_nil]
            exact .reading hunder
          · exact absurd rfl (hvalue (.ok ()))
        refine ⟨hhandling, ?_, ?_⟩
        · intro hstop
          cases body with
          | ret value => exact absurd rfl (hvalue (.ok value))
          | throw error => exact absurd rfl (hvalue (.error error))
          | unfinished => cases hstop
          | call op next => cases hstop
        · intro error hstop
          cases body with
          | ret value => exact hvalue (.ok value) rfl
          | throw error => exact hvalue (.error error) rfl
          | unfinished => cases hstop
          | call op next => cases hstop
      · rcases returns_attempt_iff.mp hfront with ⟨value, rfl, hbody⟩ | ⟨error, rfl, hbody⟩
        · obtain ⟨rfl, rfl⟩ := runs_ret_iff.mp hback
          rw [List.append_nil]
          rcases registerDevice_runs hbody with ⟨-, hreturns, -⟩ |
            ⟨start, reads, last, rfl, hunder, ⟨-, hreturns, -⟩ | ⟨descriptor, rfl, -, hdescribes⟩⟩
          · exact absurd rfl (hreturns value)
          · exact absurd rfl (hreturns value)
          · have hsettled := Settled.connected hunder hdescribes
            exact ⟨.settled hsettled, fun _ => hsettled, by simp⟩
        · rcases registerDevice_runs hbody with ⟨-, -, hthrows⟩ |
            ⟨start, reads, last, rfl, hunder, ⟨rfl, -, hnothing⟩ | ⟨descriptor, -, hreturns, -⟩⟩
          · exact absurd rfl (hthrows error)
          · rw [List.append_nil]
            rcases runs_call_iff.mp hback with ⟨rfl, rfl⟩ | ⟨_, last, rfl, hlast⟩
            · rw [List.append_nil]
              exact ⟨.reading hunder, by simp, by simp⟩
            · obtain ⟨rfl, rfl⟩ := runs_ret_iff.mp hlast
              have hsettled := Settled.closed hunder (hnothing ⟨error, rfl⟩)
              exact ⟨.settled hsettled, fun _ => hsettled, by simp⟩
          · cases hreturns

/-- Whatever connects and whatever arrives: the server settles its sockets one after another,
registers one exactly when it has read the whole frame of a descriptor and not a byte more,
closes it otherwise, waits for none beyond its deadline, and no socket stops it. By induction
on the calls of the handler. -/
theorem server_settles {stop : ServerProgram Unit} (run : Runs (TCPDoAccept passes) trace stop) :
    (∃ served current, trace = served ++ current ∧ Served served ∧ Handling current ∧
      (stop = .ret () → current = [])) ∧ ∀ error, stop ≠ .throw error := by
  induction passes generalizing trace with
  | zero =>
      obtain ⟨rfl, rfl⟩ := runs_unfinished_iff.mp run
      exact ⟨⟨[], [], rfl, .none, .waiting, fun _ => rfl⟩, by simp⟩
  | succ passes ih =>
      rcases runs_bind_iff.mp run with ⟨middle, hmiddle, hvalue, rfl⟩ |
        ⟨_, front, back, rfl, hfront, hback⟩
      · obtain ⟨hhandling, -, hthrows⟩ := acceptPass_runs hmiddle
        refine ⟨⟨[], trace, rfl, .none, hhandling, ?_⟩, ?_⟩
        · intro hstop
          cases middle with
          | ret value => exact absurd rfl (hvalue value)
          | throw error => cases hstop
          | unfinished => cases hstop
          | call op next => cases hstop
        · intro error hstop
          cases middle with
          | ret value => exact hvalue value rfl
          | throw error => exact hthrows error rfl
          | unfinished => cases hstop
          | call op next => cases hstop
      · have hsettled := (acceptPass_runs hfront).2.1 rfl
        rcases runs_perform_bind_iff.mp hback with ⟨rfl, rfl⟩ | ⟨isOpen, rest, rfl, hrest⟩
        · rw [List.append_nil]
          exact ⟨⟨[], front, rfl, .none, .settled hsettled, by simp⟩, by simp⟩
        cases isOpen with
        | false =>
            obtain ⟨rfl, rfl⟩ := runs_ret_iff.mp hrest
            exact ⟨⟨_, [], (List.append_nil _).symm, .next hsettled false .none, .waiting,
              fun _ => rfl⟩, by simp⟩
        | true =>
            obtain ⟨⟨served, current, rfl, hserved, hcurrent, hreturned⟩, hthrows⟩ := ih hrest
            refine ⟨⟨_, current, ?_, .next hsettled true hserved, hcurrent, hreturned⟩, hthrows⟩
            rw [List.append_assoc, List.cons_append]

/-- What one read takes from a socket. -/
def pieceOf (size : Nat) (unread : Bytes) : ReadSomeResult size :=
  if h : unread.take size ≠ [] then .data ⟨unread.take size, h, List.length_take_le size unread⟩
  else .empty

/-- Sockets that come one after another, each with all of its bytes. -/
def serverAnswer : (op : ServerOp) → List Bytes → Option (op.Res × List Bytes)
  | .asyncAccept, sockets => some (.accepted, sockets)
  | .acceptorIsOpen, sockets => some (!sockets.isEmpty, sockets)
  | .steadyNow, sockets => some (0, sockets)
  | .select _ _, sockets => some (true, sockets)
  | .readSome size, unread :: rest => some (pieceOf size unread, unread.drop size :: rest)
  | .connect _, _ :: rest => some ((), rest)
  | .closeSocket, _ :: rest => some ((), rest)
  | _, [] => none

/-- The first socket announces nothing, the second brings a descriptor. -/
def serverExecution : Execution ServerOp ServerOp.Res Unit (List Bytes) :=
  (TCPDoAccept 2).execute serverAnswer [frameOf [], frameOf sampleBytes]

/-- A piece that is there whole is read at once. -/
theorem readExact_execute {size passes : Nat} {deadline : Time} {unread : Bytes}
    {rest : List Bytes} (hsize : 0 < size) (hunread : size ≤ unread.length)
    (hdeadline : 0 < deadline) :
    ((readExact size deadline (passes + 1) []).execute serverAnswer (unread :: rest)).rest =
        .ret (unread.take size) ∧
      ((readExact size deadline (passes + 1) []).execute serverAnswer (unread :: rest)).state =
        unread.drop size :: rest := by
  have hlength : (unread.take size).length = size := List.length_take_of_le hunread
  have htake : unread.take size ≠ [] := by
    rw [← List.length_pos_iff_ne_nil, hlength]
    exact hsize
  have hpiece : pieceOf size unread =
      .data ⟨unread.take size, htake, List.length_take_le size unread⟩ := dif_pos htake
  have hwhole : readExact size deadline passes (unread.take size) = .ret (unread.take size) := by
    cases passes <;> rw [readExact, if_neg (by omega)]
  rw [readExact, if_pos (by simpa using hsize)]
  simp [Prog.execute, serverAnswer, not_le.mpr hdeadline, hpiece, hwhole]

section Answered

variable {body : Bytes} {descriptor : DeviceDescriptor}

theorem readDescriptor_execute {deadline : Time} (hdeadline : 0 < deadline)
    (hbody : 1 ≤ body.length ∧ body.length ≤ 64 * 1024)
    (hdescriptor : DeserializeDeviceDescriptor body = .ok descriptor) :
    ((readDescriptor deadline).execute serverAnswer [frameOf body]).rest = .ret descriptor ∧
      ((readDescriptor deadline).execute serverAnswer [frameOf body]).state = [[]] := by
  have hfield := beBytes_length 4 body.length
  have hlength : (descriptorLength (beBytes 4 body.length)).toNat = body.length := by
    rw [descriptorLength_eq hfield, beNat_beBytes (by omega)]
  have hfirst := @readExact_execute 4 3 deadline (frameOf body) [] (by decide)
    (by rw [frameOf_length]; omega) hdeadline
  rw [frameOf, List.take_left' hfield, List.drop_left' hfield, ← frameOf] at hfirst
  obtain ⟨passes, hpasses⟩ : ∃ passes, body.length = passes + 1 :=
    ⟨body.length - 1, by omega⟩
  have hsecond := @readExact_execute body.length passes deadline body [] hbody.1 le_rfl hdeadline
  rw [List.take_length, List.drop_length, ← hpasses] at hsecond
  rw [readDescriptor, Prog.execute_bind serverAnswer hfirst.1, hfirst.2]
  dsimp only
  rw [hlength, if_neg (by omega), Prog.execute_bind serverAnswer hsecond.1, hsecond.2, hdescriptor]
  exact ⟨rfl, rfl⟩

theorem registerDevice_execute (hbody : 1 ≤ body.length ∧ body.length ≤ 64 * 1024)
    (hdescriptor : DeserializeDeviceDescriptor body = .ok descriptor) :
    (registerDevice.execute serverAnswer [frameOf body]).rest = .ret () ∧
      .connect descriptor ∈
        (registerDevice.execute serverAnswer [frameOf body]).trace.map Event.op := by
  have hdeadline : (0 : Time) < 0 + DESCRIPTOR_DEADLINE := by decide
  have hread := readDescriptor_execute hdeadline hbody hdescriptor
  rw [registerDevice, Prog.perform_bind, Prog.execute_call serverAnswer (0 : Time) _ rfl,
    Prog.execute_bind serverAnswer hread.1, hread.2]
  refine ⟨rfl, ?_⟩
  rw [List.map_cons, List.map_append]
  exact List.mem_cons_of_mem _ (List.mem_append_right _ (.head _))

theorem acceptPass_execute (hbody : 1 ≤ body.length ∧ body.length ≤ 64 * 1024)
    (hdescriptor : DeserializeDeviceDescriptor body = .ok descriptor) :
    (acceptPass.execute serverAnswer [frameOf body]).rest = .ret () ∧
      .connect descriptor ∈
        (acceptPass.execute serverAnswer [frameOf body]).trace.map Event.op := by
  obtain ⟨hrest, hconnect⟩ := registerDevice_execute hbody hdescriptor
  have hattempt : (registerDevice.attempt.execute serverAnswer [frameOf body]).rest =
      .ret (.ok ()) := by
    rw [Prog.execute_attempt, hrest]
    rfl
  rw [acceptPass, Prog.perform_bind, Prog.execute_call serverAnswer AcceptOutcome.accepted _ rfl]
  dsimp only
  rw [handleAccepted, Prog.execute_bind serverAnswer hattempt, Prog.execute_attempt]
  refine ⟨rfl, ?_⟩
  rw [List.map_cons, List.map_append]
  exact List.mem_cons_of_mem _ (List.mem_append_left _ hconnect)

/-- After a socket that announces nothing, one that brings a descriptor. -/
theorem TCPDoAccept_execute (hbody : 1 ≤ body.length ∧ body.length ≤ 64 * 1024)
    (hdescriptor : DeserializeDeviceDescriptor body = .ok descriptor) :
    .connect descriptor ∈ ((TCPDoAccept 2).execute serverAnswer
      [frameOf [], frameOf body]).trace.map Event.op := by
  obtain ⟨hrest, hconnect⟩ := acceptPass_execute hbody hdescriptor
  have hfirst : (acceptPass.execute serverAnswer [frameOf [], frameOf body]).rest = .ret () := rfl
  have hstate : (acceptPass.execute serverAnswer [frameOf [], frameOf body]).state =
      [frameOf body] := rfl
  rw [TCPDoAccept, Prog.execute_bind serverAnswer hfirst, hstate, Prog.perform_bind,
    Prog.execute_call serverAnswer true _ rfl]
  dsimp only
  rw [TCPDoAccept, Prog.execute_bind serverAnswer hrest, List.map_append, List.map_cons,
    List.map_append]
  exact List.mem_append_right _ (List.mem_cons_of_mem _ (List.mem_append_left _ hconnect))

end Answered

theorem server_settles_sample :
    (serverExecution.trace.map Event.op).contains .closeSocket = true ∧
      (serverExecution.trace.map Event.op).contains (.connect sampleDescriptor) = true ∧
      ∃ served current, serverExecution.trace = served ++ current ∧ Served served ∧
        Handling current := by
  obtain ⟨⟨served, current, htrace, hserved, hcurrent, -⟩, -⟩ :=
    server_settles (Prog.execute_runs serverAnswer (TCPDoAccept 2) _)
  have hconnect := TCPDoAccept_execute sampleDevice_admitted.encode_bounds sampleBytes_deserialize
  exact ⟨by decide +kernel, List.contains_iff_mem.mpr hconnect, served, current, htrace, hserved,
    hcurrent⟩

end Serving

section Arrival

/-- What is still unread in the tunnel, the devices that the server has registered, and how many
sockets it has closed. -/
structure Tunnel where
  unread : Bytes
  connected : List DeviceDescriptor
  closed : Nat

/-- A phone whose bytes arrive in pieces of any size, all of them while the clock reads less
than `start` and eight seconds. -/
def arriving (start : Time) : World ServerOp ServerOp.Res Tunnel
  | tunnel, .asyncAccept, outcome, after => outcome = .accepted ∧ after = tunnel
  | tunnel, .acceptorIsOpen, _, after => after = tunnel
  | tunnel, .steadyNow, now, after =>
      start ≤ now ∧ now < start + DESCRIPTOR_DEADLINE ∧ after = tunnel
  | tunnel, .select _ _, ready, after => ready = !tunnel.unread.isEmpty ∧ after = tunnel
  | tunnel, .readSome _, result, after => ∃ piece, result = .data piece ∧
      tunnel.unread = piece.val ++ after.unread ∧ after = { tunnel with unread := after.unread }
  | tunnel, .connect descriptor, _, after =>
      after = { tunnel with connected := tunnel.connected ++ [descriptor] }
  | tunnel, .closeSocket, _, after => after = { tunnel with closed := tunnel.closed + 1 }

variable {start deadline : Time} {size passes : Nat} {bytes front rest : Bytes} {tunnel : Tunnel}

theorem arriving_now (start : Time) (tunnel : Tunnel) :
    ∃ now after, arriving start tunnel .steadyNow now after :=
  ⟨start, tunnel, le_refl start, Int.lt_add_of_pos_right start (by decide), rfl⟩

/-- Something that is unread can be read. -/
theorem arriving_piece (start : Time) (hsize : 0 < size) (hunread : tunnel.unread ≠ []) :
    ∃ result after, arriving start tunnel (.readSome size) result after := by
  cases hbytes : tunnel.unread with
  | nil => exact absurd hbytes hunread
  | cons byte rest =>
      have hpiece : [byte] ≠ [] ∧ [byte].length ≤ size := ⟨List.cons_ne_nil _ _, hsize⟩
      exact ⟨.data ⟨[byte], hpiece⟩, { tunnel with unread := rest }, _, rfl, hbytes, rfl⟩

/-- By induction on the passes: what is read moves from the tunnel to the buffer. -/
theorem readExact_completes (hdeadline : start + DESCRIPTOR_DEADLINE ≤ deadline)
    (hsize : bytes.length + front.length = size) (hpasses : front.length ≤ passes)
    (hunread : tunnel.unread = front ++ rest) :
    (readExact size deadline passes bytes).Completes (arriving start)
      (fun all after => all = bytes ++ front ∧ after = { tunnel with unread := rest }) tunnel := by
  induction passes generalizing bytes front tunnel with
  | zero =>
      obtain rfl : front = [] := List.length_eq_zero_iff.mp (Nat.le_zero.mp hpasses)
      unfold readExact
      rw [if_neg (by rw [List.length_nil] at hsize; omega)]
      exact ⟨(List.append_nil _).symm, by rw [← List.nil_append rest, ← hunread]⟩
  | succ passes ih =>
      unfold readExact
      split
      swap
      · next hfull =>
          obtain rfl : front = [] := List.length_eq_zero_iff.mp (by omega)
          exact ⟨(List.append_nil _).symm, by rw [← List.nil_append rest, ← hunread]⟩
      next hless =>
      have hmore : front ≠ [] := by
        rintro rfl
        rw [List.length_nil] at hsize
        omega
      have hready : tunnel.unread ≠ [] := by
        rw [hunread]
        exact List.append_ne_nil_of_left_ne_nil hmore rest
      refine Prog.completes_perform_bind (arriving_now start tunnel) ?_
      rintro now _ ⟨-, hnow, rfl⟩
      rw [if_neg (not_le.mpr (hnow.trans_le hdeadline))]
      refine Prog.completes_perform_bind ⟨_, _, rfl, rfl⟩ ?_
      rintro ready _ ⟨rfl, rfl⟩
      rw [List.isEmpty_eq_false_iff.mpr hready]
      refine Prog.completes_perform_bind (arriving_piece start (by omega) hready) ?_
      rintro _ after ⟨piece, rfl, hpiece, hafter⟩
      have hfits := piece.property.2
      have hpositive := List.length_pos_of_ne_nil piece.property.1
      have hleft : piece.val <+: front ++ rest := by
        rw [← hunread, hpiece]
        exact List.prefix_append _ _
      -- the piece is not longer than what is missing
      obtain ⟨more, rfl⟩ :=
        List.prefix_of_prefix_length_le hleft (List.prefix_append front rest) (by omega)
      rw [hunread, List.append_assoc] at hpiece
      have hfilled : (bytes ++ piece.val).length + more.length = size := by
        rw [List.length_append] at hsize ⊢
        omega
      have hfewer : more.length ≤ passes := by
        rw [List.length_append] at hpasses
        omega
      have hcompletes := ih hfilled hfewer (List.append_cancel_left hpiece).symm
      refine hcompletes.mono ?_
      rintro all later ⟨rfl, rfl⟩
      refine ⟨List.append_assoc _ _ _, ?_⟩
      rw [hafter]

/-- Reading what is there, from the beginning. -/
theorem readExact_delivers (hdeadline : start + DESCRIPTOR_DEADLINE ≤ deadline)
    (hsize : front.length = size) (hunread : tunnel.unread = front ++ rest) :
    (readExact size deadline size []).Completes (arriving start)
      (fun all after => all = front ∧ after = { tunnel with unread := rest }) tunnel := by
  have hfrom : ([] : Bytes).length + front.length = size := by
    rw [List.length_nil, Nat.zero_add, hsize]
  exact readExact_completes hdeadline hfrom hsize.le hunread

/-- Never without an answer, and never cut. -/
abbrev ServerProgram.Ends {α : Type} (start : Time) (ends : Except String α → Tunnel → Prop)
    (program : ServerProgram α) (tunnel : Tunnel) : Prop :=
  program.Keeps (arriving start) (fun state op => ∃ res after, arriving start state op res after)
    ends (fun _ => False) tunnel

/-- A frame that arrives is read to its last byte and no further. -/
theorem readDescriptor_ends {body : Bytes} (hdeadline : start + DESCRIPTOR_DEADLINE ≤ deadline)
    (hbody : 1 ≤ body.length ∧ body.length ≤ 64 * 1024)
    (hunread : tunnel.unread = frameOf body ++ rest) :
    (readDescriptor deadline).Ends start
      (fun result after => after = { tunnel with unread := rest } ∧
        ∀ descriptor, result = .ok descriptor ↔ DeserializeDeviceDescriptor body = .ok descriptor)
      tunnel := by
  rw [frameOf, List.append_assoc] at hunread
  have hfield := beBytes_length 4 body.length
  refine Prog.Keeps.bind (readExact_delivers hdeadline hfield hunread) (fun _ _ h => h.elim) ?_
  rintro _ _ ⟨rfl, rfl⟩
  have hlength : (descriptorLength (beBytes 4 body.length)).toNat = body.length := by
    rw [descriptorLength_eq hfield, beNat_beBytes (by omega)]
  dsimp only
  rw [hlength, if_neg (by omega)]
  refine Prog.Keeps.bind (readExact_delivers hdeadline rfl rfl) (fun _ _ h => h.elim) ?_
  rintro _ _ ⟨rfl, rfl⟩
  split
  · next error herror =>
      refine ⟨rfl, fun descriptor => ?_⟩
      rw [herror]
      exact iff_of_false (fun h => by cases h) (fun h => by cases h)
  · next descriptor hdescriptor =>
      refine ⟨rfl, fun other => ?_⟩
      rw [hdescriptor, Except.ok.injEq, Except.ok.injEq]

/-- What becomes of the socket of a frame. -/
def Tunnel.settled (tunnel : Tunnel) (body rest : Bytes) : Tunnel :=
  match DeserializeDeviceDescriptor body with
  | .ok descriptor =>
      { tunnel with unread := rest, connected := tunnel.connected ++ [descriptor] }
  | .error _ => { tunnel with unread := rest, closed := tunnel.closed + 1 }

/-- The body of `try` registers the descriptor of a frame, or throws. -/
theorem registerDevice_ends {body : Bytes} (hbody : 1 ≤ body.length ∧ body.length ≤ 64 * 1024)
    (hunread : tunnel.unread = frameOf body ++ rest) :
    registerDevice.Ends start (fun result after =>
      (result = .ok () ∧ after = tunnel.settled body rest) ∨
      ∃ error, result = .error error ∧
        { after with closed := after.closed + 1 } = tunnel.settled body rest) tunnel := by
  refine ⟨arriving_now start tunnel, ?_⟩
  rintro now _ ⟨hstart, -, rfl⟩
  change (readDescriptor (now + DESCRIPTOR_DEADLINE) >>= fun descriptor =>
    server (.connect descriptor)).Ends start _ _
  refine Prog.Keeps.bind
    (readDescriptor_ends (Int.add_le_add_right hstart DESCRIPTOR_DEADLINE) hbody hunread) ?_ ?_
  · rintro error _ ⟨rfl, hresult⟩
    refine .inr ⟨error, rfl, ?_⟩
    cases hdescriptor : DeserializeDeviceDescriptor body with
    | ok descriptor => cases (hresult descriptor).mpr hdescriptor
    | error fault => rw [Tunnel.settled, hdescriptor]
  · rintro descriptor _ ⟨rfl, hresult⟩
    refine ⟨⟨(), _, rfl⟩, ?_⟩
    rintro _ _ rfl
    refine .inl ⟨rfl, ?_⟩
    rw [Tunnel.settled, (hresult descriptor).mp rfl]

/-- A frame that arrives in time decides about its socket. -/
theorem acceptPass_settles {body : Bytes} (hbody : 1 ≤ body.length ∧ body.length ≤ 64 * 1024)
    (hunread : tunnel.unread = frameOf body ++ rest) :
    acceptPass.Completes (arriving start)
      (fun _ after => after = tunnel.settled body rest) tunnel := by
  refine Prog.completes_perform_bind ⟨_, _, rfl, rfl⟩ ?_
  rintro _ accepted ⟨rfl, rfl⟩
  refine Prog.Completes.bind (registerDevice_ends hbody hunread).attempt ?_
  rintro _ after (⟨rfl, rfl⟩ | ⟨error, rfl, hsettled⟩)
  · rfl
  · refine ⟨⟨(), _, rfl⟩, ?_⟩
    rintro _ _ rfl
    exact hsettled

end Arrival

section Delivery

/-- A phone's descriptor, under the names of the controller. -/
def described (device : Android.DeviceDescriptor) : DeviceDescriptor where
  name := Jvm.toUtf8 device.name
  url := Jvm.toUtf8 device.url
  protocol := ascii "tcp"
  frontResolutions := device.frontResolutions
  backResolutions := device.backResolutions
  filters := groupByCategory (device.filterInfos.map Android.DeviceDescriptor.wireFilter)

/-- What the controller asks of a descriptor beyond what the phone asks. -/
def Welcome (device : Android.DeviceDescriptor) : Prop :=
  ValidLoopbackMediaUrl (Jvm.toUtf8 device.url) = true ∧
    ∀ text ∈ device.strings, Android.DeviceDescriptor.Printable text

/-- What the controller reads in the bytes of a phone's descriptor. -/
theorem deserialize_serialized {device : Android.DeviceDescriptor} (h : device.Admitted)
    (descriptor : DeviceDescriptor) :
    DeserializeDeviceDescriptor (Linux.encodeDeviceDescriptor device.wire) = .ok descriptor ↔
      Welcome device ∧ descriptor = described device := by
  have hresolutions : ∀ resolutions : List (Int × Int),
      (∀ resolution ∈ resolutions, Android.DeviceDescriptor.admitsResolution resolution = true) →
      (resolutions.map Android.DeviceDescriptor.wireResolution).map resolutionPair =
        resolutions := by
    intro resolutions hall
    rw [List.map_map]
    conv_rhs => rw [← List.map_id resolutions]
    exact List.map_congr_left fun resolution hmem =>
      Android.DeviceDescriptor.wireResolution_inv (hall resolution hmem)
  have hdescribed : described device = ⟨device.wire.name, device.wire.rtspUrl, ascii "tcp",
      device.wire.frontResolutions.map resolutionPair,
      device.wire.backResolutions.map resolutionPair, collectFilters device.wire.filters⟩ := by
    rw [collectFilters_eq, Android.DeviceDescriptor.wire, hresolutions _ h.front,
      hresolutions _ h.back, described]
  have hempty : ValidLoopbackMediaUrl (Jvm.toUtf8 []) = false := by decide
  rw [DeserializeDeviceDescriptor_ok_iff]
  constructor
  · rintro ⟨fields, hparse, hlimits, rfl⟩
    obtain ⟨⟨-, hprintable⟩, rfl⟩ :=
      (Android.DeviceDescriptor.parse_serialized_iff h fields).mp hparse
    exact ⟨⟨hlimits.url, hprintable⟩, hdescribed.symm⟩
  · rintro ⟨⟨hurl, hprintable⟩, rfl⟩
    refine ⟨device.wire, (Android.DeviceDescriptor.parse_serialized_iff h _).mpr
      ⟨⟨?_, hprintable⟩, rfl⟩, ⟨h.name_short, hurl, ?_⟩, hdescribed⟩
    · intro hnil
      rw [hnil, hempty] at hurl
      cases hurl
    · intro filter hmem
      obtain ⟨info, hinfo, rfl⟩ := List.mem_map.mp hmem
      exact h.filters info hinfo

theorem int32Bytes_length {length : Nat} (h : length < 2 ^ 32) :
    Jvm.int32Bytes length = beBytes 4 length := by
  have hmod : ((length : Int) % 2 ^ 32).toNat = length := by omega
  rw [Jvm.int32Bytes, hmod]

/-- What the phone writes for a descriptor is the frame that the server reads. -/
theorem legacyWire_frame {body : Bytes} (hbody : 1 ≤ body.length ∧ body.length ≤ 64 * 1024) :
    Android.TCPConnection.legacyWire Android.TYPE_DESCRIPTOR body = .ok (frameOf body) := by
  rw [Android.TCPConnection.legacyWire_descriptor hbody.1 hbody.2, int32Bytes_length (by omega),
    frameOf]

/-- Whatever the phone serializes it can send, and the server takes exactly those bytes from the
tunnel, in whatever pieces they come: it registers the device that the phone has described, or
closes the socket if the controller asks for more. -/
theorem descriptor_delivered {device : Android.DeviceDescriptor} {bytes : Bytes}
    (hserialize : device.serialize = .ok bytes) (start : Time) (rest : Bytes) (tunnel : Tunnel) :
    ∃ wire, Android.TCPConnection.legacyWire Android.TYPE_DESCRIPTOR bytes = .ok wire ∧
      (Welcome device → acceptPass.Completes (arriving start)
        (fun _ after => after =
          { tunnel with unread := rest, connected := tunnel.connected ++ [described device] })
        { tunnel with unread := wire ++ rest }) ∧
      (¬ Welcome device → acceptPass.Completes (arriving start)
        (fun _ after => after = { tunnel with unread := rest, closed := tunnel.closed + 1 })
        { tunnel with unread := wire ++ rest }) := by
  obtain ⟨hadmitted, rfl⟩ := (Android.DeviceDescriptor.serialize_ok_iff device bytes).mp hserialize
  have hbody := hadmitted.encode_bounds
  refine ⟨_, legacyWire_frame hbody, fun hwelcome => ?_, fun hwelcome => ?_⟩
  · refine (acceptPass_settles hbody rfl).mono ?_
    rintro _ _ rfl
    rw [Tunnel.settled, (deserialize_serialized hadmitted _).mpr ⟨hwelcome, rfl⟩]
  · refine (acceptPass_settles hbody rfl).mono ?_
    rintro _ _ rfl
    cases hdescriptor : DeserializeDeviceDescriptor (Linux.encodeDeviceDescriptor device.wire) with
    | ok descriptor => exact absurd ((deserialize_serialized hadmitted _).mp hdescriptor).1 hwelcome
    | error fault => rw [Tunnel.settled, hdescriptor]

theorem descriptor_delivered_sample :
    acceptPass.Completes (arriving 0)
      (fun _ after => after = ⟨[9], [described sampleDevice], 0⟩)
      ⟨frameOf sampleBytes ++ [9], [], 0⟩ := by
  have hwire := legacyWire_frame sampleDevice_admitted.encode_bounds
  obtain ⟨wire, hsent, hdelivered, -⟩ := descriptor_delivered sampleDevice_serialize 0 [9] ⟨[], [], 0⟩
  obtain rfl := Except.ok.inj (hwire.symm.trans hsent)
  exact hdelivered ⟨sampleDevice_limits.url, sampleDevice_printable⟩

end Delivery

end Server

end OpenCam.Windows
