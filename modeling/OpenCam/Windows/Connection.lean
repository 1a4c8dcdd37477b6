import OpenCam.Android.ErrorReport
import OpenCam.Bytes.Framing
import OpenCam.Windows.Serializer

/-!
`Connection::Read`: the error reports that the Windows controller cuts out of what
a phone sends. The reports are the same however the bytes arrive, and those of
the phone all get through.
-/

namespace OpenCam.Windows

open Octets Octets.Reader Jvm

/-- `Connection::ErrorReport`. -/
structure ErrorReport where
  severity : UInt8
  error : Bytes
  description : Bytes
deriving DecidableEq, Repr

def SERVERITY_ERROR : UInt8 := 1

/-- The fields of a report, as they are read. -/
def readErrorReport : Reader String ErrorReport := do
  let severity ← u8
  require (!(severity > SERVERITY_ERROR)) "Invalid error severity"
  let error ← string 1024
  let description ← string 2048
  Reader.pure ⟨severity, error, description⟩

/-- The report at the front and the number of bytes it takes. -/
def DeserializeErrorReport (data : Bytes) : Except (Fault String) (ErrorReport × Nat) :=
  if data.length > MAX_MESSAGE then .error (.thrown "Error frame exceeds limit")
  else readErrorReport data 0

/-- What `Read` uses of a connection, with the reports it has delivered. -/
structure ReadingConnection where
  pendingBytes : Bytes := []
  received : List ErrorReport := []
  closed : Bool := false
deriving DecidableEq, Repr

namespace ReadingConnection

def Close (connection : ReadingConnection) : ReadingConnection := { connection with closed := true }

/-- The loop of `Read`. A report takes at least one byte, so as many rounds as
there are bytes are enough. -/
def deliver : Nat → ReadingConnection → ReadingConnection
  | 0, connection => connection
  | rounds + 1, connection =>
      if connection.pendingBytes.isEmpty then connection
      else
        match DeserializeErrorReport connection.pendingBytes with
        | .ok (report, consumed) =>
            if consumed = 0 || consumed > connection.pendingBytes.length then connection.Close
            else deliver rounds { connection with
              pendingBytes := connection.pendingBytes.drop consumed
              received := connection.received ++ [report] }
        | .error (.thrown message) =>
            if message = incompleteMessage then connection else connection.Close
        | .error (.outOfBounds _) => connection.Close

/-- The handler of `Read`, for the bytes that it was given. -/
def Read (connection : ReadingConnection) (bytes : Bytes) : ReadingConnection :=
  if connection.closed then connection
  else if connection.pendingBytes.length + bytes.length > 4096 then connection.Close
  else
    let pending := connection.pendingBytes ++ bytes
    deliver (pending.length + 1) { connection with pendingBytes := pending }

def ReadAll (connection : ReadingConnection) (pieces : List Bytes) : ReadingConnection :=
  pieces.foldl Read connection

end ReadingConnection

section Settled

/-- The two accesses of `u16`. -/
def wordAt (data : Bytes) (offset : Nat) : Except (Fault String) UInt16 := do
  let high ← byteAt data offset
  let low ← byteAt data (offset + 1)
  .ok ((high.toUInt16 <<< 8) ||| low.toUInt16)

theorem u8_counted : u8 = counted 1 incompleteMessage byteAt := by
  funext data offset
  unfold u8 counted
  split
  · rfl
  · cases byteAt (ε := String) data offset <;> rfl

theorem u16_counted : u16 = counted 2 incompleteMessage wordAt := by
  funext data offset
  unfold u16 counted wordAt
  split
  · rfl
  · cases byteAt (ε := String) data offset with
    | error fault => rfl
    | ok high => cases byteAt (ε := String) data (offset + 1) <;> rfl

theorem copy_counted (length : Nat) : copy length =
    counted length incompleteMessage (fun data offset => copyBytes data offset length) := by
  funext data offset
  unfold copy counted
  split
  · rfl
  · dsimp only
    cases copyBytes (ε := String) data offset length <;> rfl

theorem byteAt_ne_thrown {data : Bytes} {index : Nat} {message : String} :
    byteAt data index ≠ .error (.thrown message) := by
  unfold byteAt
  split <;> nofun

theorem settles_u8 : Settles incompleteMessage u8 := by
  rw [u8_counted]
  exact settles_counted fun _ _ _ h => byteAt_append h

theorem within_u8 : Within incompleteMessage 1 u8 := by
  rw [u8_counted]
  exact within_counted fun _ _ => byteAt_ne_thrown

theorem settles_u16 : Settles incompleteMessage u16 := by
  rw [u16_counted]
  apply settles_counted
  intro data more offset h
  unfold wordAt
  rw [byteAt_append (by omega), byteAt_append (by omega)]

theorem within_u16 : Within incompleteMessage 2 u16 := by
  rw [u16_counted]
  apply within_counted
  intro data offset h
  unfold wordAt at h
  cases hhigh : byteAt (ε := String) data offset with
  | error fault =>
      rw [hhigh] at h
      cases h
      exact byteAt_ne_thrown hhigh
  | ok high =>
      cases hlow : byteAt (ε := String) data (offset + 1) with
      | error fault =>
          rw [hhigh, hlow] at h
          cases h
          exact byteAt_ne_thrown hlow
      | ok low =>
          rw [hhigh, hlow] at h
          cases h

theorem settles_copy (length : Nat) : Settles incompleteMessage (copy length) := by
  rw [copy_counted]
  exact settles_counted fun _ _ _ h => copyBytes_append h

theorem within_copy (length : Nat) : Within incompleteMessage length (copy length) := by
  rw [copy_counted]
  apply within_counted
  intro data offset h
  unfold copyBytes at h
  split at h <;> cases h

theorem settles_string (limit : Nat) : Settles incompleteMessage (string limit) := by
  unfold string
  apply settles_u16.bind
  intro length
  apply (settles_check _ _).bind
  intro _
  apply (settles_copy _).bind
  intro value
  apply (settles_check _ _).bind
  intro _
  apply (settles_check _ _).bind
  intro _
  exact settles_pure value

theorem within_string (limit : Nat) : Within incompleteMessage (2 + limit) (string limit) := by
  unfold string
  apply within_u16.bind settles_u16
  intro length
  apply Within.required (by decide)
  intro hlimit
  have hshort : length.toNat ≤ limit := of_decide_eq_true hlimit
  have hcopied : Within incompleteMessage (length.toNat + 0) (copy length.toNat >>= fun value =>
      check (ValidUtf8 value) "Invalid UTF-8" >>= fun _ =>
      require (!value.any Linux.isControlCharacter) "Control character in string" >>= fun _ =>
      Reader.pure value) := by
    apply (within_copy _).bind (settles_copy _)
    intro value
    obtain ⟨valid, hvalid, _⟩ := Linux.isValidUtf8_spec value
    have hnofault : ∀ fault, ValidUtf8 value ≠ .error fault := by
      rw [ValidUtf8, hvalid]
      exact fun _ => nofun
    apply Within.checked hnofault (by decide)
    intro _
    apply Within.required (by decide)
    intro _
    exact within_pure value
  exact hcopied.mono hshort

theorem settles_readErrorReport : Settles incompleteMessage readErrorReport := by
  unfold readErrorReport
  apply settles_u8.bind
  intro severity
  apply (settles_check _ _).bind
  intro _
  apply (settles_string _).bind
  intro error
  apply (settles_string _).bind
  intro description
  exact settles_pure _

/-- The longest report. -/
def LONGEST_REPORT : Nat := 1 + ((2 + 1024) + ((2 + 2048) + 0))

theorem within_readErrorReport : Within incompleteMessage LONGEST_REPORT readErrorReport := by
  unfold readErrorReport
  apply within_u8.bind settles_u8
  intro severity
  apply Within.required (by decide)
  intro _
  apply (within_string _).bind (settles_string _)
  intro error
  apply (within_string _).bind (settles_string _)
  intro description
  exact within_pure _

end Settled

section Exactness

/-- The bytes of a report. -/
def encodeErrorReport (report : ErrorReport) : Bytes :=
  report.severity :: (Linux.encodeString report.error ++ Linux.encodeString report.description)

structure ValidErrorReport (report : ErrorReport) : Prop where
  severity : report.severity ≤ 1
  error_short : report.error.length ≤ 1024
  error : Linux.ValidString report.error
  description : Linux.ValidString report.description

theorem exact_readErrorReport : Exact readErrorReport encodeErrorReport ValidErrorReport := by
  have hdescription := fun severity error =>
    (exact_stringReader (show 2048 ≤ 2048 by norm_num)).map
      (fun description => (⟨severity, error, description⟩ : ErrorReport)) ErrorReport.description
      (fun _ => rfl)
  have herror := fun severity => ((exact_stringReader (show 1024 ≤ 2048 by norm_num)).bind
    ErrorReport.error (hdescription severity) (fun error report h => by rw [← h.2])).required
    (!(severity > SERVERITY_ERROR)) "Invalid error severity"
  have hseverity := exact_u8.bind ErrorReport.severity herror
    (fun severity report h => by rw [← h.2.2.2])
  refine hseverity.congr (fun report => ?_) (fun report _ => ?_)
  · have hcheck : (!decide (report.severity > SERVERITY_ERROR)) = true ↔ report.severity ≤ 1 := by
      rw [Bool.not_eq_true', decide_eq_false_iff_not, gt_iff_lt, UInt8.not_lt]
      exact Iff.rfl
    rw [hcheck]
    constructor
    · rintro ⟨_, hseverity, ⟨hshort, herror⟩, ⟨_, hdescription⟩, _⟩
      exact ⟨hseverity, hshort, herror, hdescription⟩
    · rintro ⟨hseverity, hshort, herror, hdescription⟩
      exact ⟨trivial, hseverity, ⟨hshort, herror⟩, ⟨hdescription.short, hdescription⟩, rfl⟩
  · simp [encodeErrorReport]

end Exactness

section Framing

/-- What the loop of `Read` finds at the front of the pending bytes. -/
def errorReportFront (data : Bytes) : Parsed ErrorReport :=
  match readErrorReport data 0 with
  | .ok (report, consumed) => .message report consumed
  | .error (.thrown message) => if message = incompleteMessage then .incomplete else .malformed
  | .error (.outOfBounds _) => .malformed

theorem errorReportFront_message {data : Bytes} {report : ErrorReport} {consumed : Nat} :
    errorReportFront data = .message report consumed ↔
      readErrorReport data 0 = .ok (report, consumed) := by
  unfold errorReportFront
  cases readErrorReport data 0 with
  | ok result => simp only [Parsed.message.injEq, Except.ok.injEq, Prod.ext_iff]
  | error fault =>
      cases fault with
      | outOfBounds index => simp
      | thrown message =>
          simp only [reduceCtorEq, iff_false]
          split <;> nofun

theorem errorReportFront_incomplete {data : Bytes} :
    errorReportFront data = .incomplete ↔
      readErrorReport data 0 = .error (.thrown incompleteMessage) := by
  unfold errorReportFront
  cases readErrorReport data 0 with
  | ok result => simp
  | error fault =>
      cases fault with
      | outOfBounds index => simp
      | thrown message => by_cases h : message = incompleteMessage <;> simp [h]

/-- The reports as messages of a stream. -/
def errorReportFramer : Framer ErrorReport where
  parse := errorReportFront
  consumed := by
    intro data report consumed h
    obtain ⟨_, hconsumed, hstart⟩ := (exact_readErrorReport.reads _ _ _ _ (Nat.zero_le _)).mp
      (errorReportFront_message.mp h)
    have hlength := hstart.length_le
    simp only [encodeErrorReport, List.length_cons, List.drop_zero] at hconsumed hlength
    omega
  message_stable := by
    intro data report consumed h more
    have hread := errorReportFront_message.mp h
    have hsame := settles_readErrorReport.stable data more 0 (Nat.zero_le _)
      (by rw [hread]; nofun)
    exact errorReportFront_message.mpr (hsame.trans hread)
  malformed_stable := by
    intro data h more
    have hsettled : readErrorReport data 0 ≠ .error (.thrown incompleteMessage) := by
      intro hincomplete
      rw [errorReportFront_incomplete.mpr hincomplete] at h
      cases h
    have hsame := settles_readErrorReport.stable data more 0 (Nat.zero_le _) hsettled
    rw [← h, errorReportFront, errorReportFront, hsame]

theorem errorReportFront_short {data : Bytes} (h : errorReportFront data = .incomplete) :
    data.length < LONGEST_REPORT := by
  have hshort := within_readErrorReport.raises data 0 (Nat.zero_le _)
    (errorReportFront_incomplete.mp h)
  omega

end Framing

namespace ReadingConnection

section Receiving

/-- A report is appended to those delivered. -/
def handleReport (reports : List ErrorReport) (report : ErrorReport) : List ErrorReport × Bool :=
  (reports ++ [report], true)

/-- The connection as the receiver of a stream. -/
def receiving (connection : ReadingConnection) : Receiving (List ErrorReport) :=
  ⟨connection.pendingBytes, connection.received, connection.closed⟩

theorem receiving_deliver (rounds : Nat) {connection : ReadingConnection}
    (hopen : connection.closed = false) (hfits : connection.pendingBytes.length ≤ 4096) :
    (connection.deliver rounds).receiving = errorReportFramer.drain handleReport rounds
      connection.pendingBytes connection.received := by
  induction rounds generalizing connection with
  | zero => simp only [deliver, Framer.drain, receiving, hopen]
  | succ rounds ih =>
      have hwhole : DeserializeErrorReport connection.pendingBytes =
          readErrorReport connection.pendingBytes 0 := by
        have hmax : MAX_MESSAGE = 65536 := rfl
        exact if_neg (by omega)
      simp only [deliver, Framer.drain, errorReportFramer, hwhole]
      by_cases hempty : connection.pendingBytes.isEmpty = true
      · have hnothing : errorReportFront connection.pendingBytes = .incomplete := by
          rw [List.isEmpty_iff.mp hempty]
          rfl
        rw [if_pos hempty, hnothing]
        simp only [receiving, hopen]
      rw [if_neg hempty]
      cases hread : readErrorReport connection.pendingBytes 0 with
      | ok result =>
          obtain ⟨report, consumed⟩ := result
          have hfront := errorReportFront_message.mpr hread
          have hconsumed := errorReportFramer.consumed hfront
          have hvalid : (consumed = 0 || consumed > connection.pendingBytes.length) = false := by
            rw [Bool.or_eq_false_iff, decide_eq_false_iff_not, decide_eq_false_iff_not]
            omega
          have hrest := @ih
            { connection with
              pendingBytes := connection.pendingBytes.drop consumed
              received := connection.received ++ [report] } hopen
            (by simp only [List.length_drop]; omega)
          simp only [hfront, hvalid, handleReport, Bool.false_eq_true, if_false, if_true]
          exact hrest
      | error fault =>
          cases fault with
          | thrown message =>
              by_cases hincomplete : message = incompleteMessage
              · simp only [errorReportFront, hread, hincomplete, if_true, receiving, hopen]
              · simp only [errorReportFront, hread, hincomplete, if_false]
                rfl
          | outOfBounds index =>
              simp only [errorReportFront, hread]
              rfl

theorem receiving_Read (connection : ReadingConnection) (bytes : Bytes) :
    (connection.Read bytes).receiving =
      errorReportFramer.feed handleReport 4096 connection.receiving bytes := by
  have hclosed : connection.receiving.closed = connection.closed := rfl
  have hpending : connection.receiving.pending = connection.pendingBytes := rfl
  rw [Framer.feed, hclosed, hpending]
  unfold Read
  by_cases hopen : connection.closed = true
  · rw [if_pos hopen, if_pos hopen]
  rw [if_neg hopen, if_neg hopen]
  by_cases hroom : connection.pendingBytes.length + bytes.length > 4096
  · rw [if_pos hroom, if_pos hroom]
    rfl
  · rw [if_neg hroom, if_neg hroom]
    apply receiving_deliver _ (Bool.not_eq_true _ ▸ hopen)
    simp only [List.length_append]
    omega

/-- The connection is the receiver of its stream. -/
theorem receiving_ReadAll (connection : ReadingConnection) (pieces : List Bytes) :
    (connection.ReadAll pieces).receiving =
      errorReportFramer.feedAll handleReport 4096 connection.receiving pieces := by
  induction pieces generalizing connection with
  | nil => rfl
  | cons piece pieces ih =>
      rw [ReadAll, List.foldl_cons, Framer.feedAll, List.foldl_cons, ← receiving_Read]
      exact ih _

end Receiving

section Delivery

/-- The reports that fit the limits of the controller. -/
structure Deliverable (report : Android.ErrorReport) : Prop where
  error_short : (toUtf8 report.error).length ≤ 1024
  error : Android.DeviceDescriptor.Printable report.error
  description_short : (toUtf8 report.description).length ≤ 2048
  description : Android.DeviceDescriptor.Printable report.description

/-- The report that the controller should deliver. -/
def reportOf (report : Android.ErrorReport) : ErrorReport :=
  ⟨UInt8.ofNat report.severity.ordinal, toUtf8 report.error, toUtf8 report.description⟩

theorem reportOf_valid {report : Android.ErrorReport} (h : Deliverable report) :
    ValidErrorReport (reportOf report) where
  severity := by cases hseverity : report.severity <;> simp [reportOf, hseverity] <;> decide
  error_short := h.error_short
  error := (Android.DeviceDescriptor.printable_iff _ (by have := h.error_short; omega)).mpr h.error
  description :=
    (Android.DeviceDescriptor.printable_iff _ h.description_short).mpr h.description

theorem serialize_mapM {reports : List Android.ErrorReport}
    (h : ∀ report ∈ reports, Deliverable report) :
    reports.mapM Android.ErrorReport.serialize =
      .ok (reports.map fun report => encodeErrorReport (reportOf report)) := by
  induction reports with
  | nil => rfl
  | cons report reports ih =>
      rw [List.forall_mem_cons] at h
      have hshort := h.1.error_short
      have hshort' := h.1.description_short
      have hserialize := @Android.ErrorReport.serialize_eq report (by omega) (by omega)
      rw [List.mapM_cons, hserialize, ih h.2]
      rfl

/-- The reports at the front of a stream are delivered, each once and in order. -/
theorem drainAll_reports {reports : List ErrorReport}
    (hvalid : ∀ report ∈ reports, ValidErrorReport report) (received : List ErrorReport) :
    errorReportFramer.drainAll handleReport (reports.flatMap encodeErrorReport) received =
      ⟨[], received ++ reports, false⟩ := by
  induction reports generalizing received with
  | nil =>
      rw [Framer.drainAll_incomplete (show errorReportFramer.parse _ = .incomplete from rfl),
        List.append_nil]
      rfl
  | cons report reports ih =>
      rw [List.forall_mem_cons] at hvalid
      have hread : readErrorReport ((report :: reports).flatMap encodeErrorReport) 0 =
          .ok (report, (encodeErrorReport report).length) := by
        apply (exact_readErrorReport.reads _ _ _ _ (Nat.zero_le _)).mpr
        exact ⟨hvalid.1, (Nat.zero_add _).symm, List.prefix_append _ _⟩
      rw [Framer.drainAll_message (errorReportFront_message.mpr hread), List.flatMap_cons,
        List.drop_left, handleReport, if_pos rfl, ih hvalid.2, List.append_assoc]
      rfl

/-- No read overfills the pending bytes. -/
def WithinLimit (pieces : List Bytes) : Prop :=
  ∀ front piece, front ++ [piece] <+: pieces → (ReadAll {} front).closed = false →
    (ReadAll {} front).pendingBytes.length + piece.length ≤ 4096

theorem withinLimit_iff {pieces : List Bytes} : WithinLimit pieces ↔
    errorReportFramer.Fits handleReport 4096 (receiving {}) pieces := by
  simp only [Framer.fits_iff, ← receiving_ReadAll]
  exact Iff.rfl

/-- Reads of at most 512 bytes always find room. -/
theorem withinLimit_of_short {pieces : List Bytes} (hpieces : ∀ piece ∈ pieces, piece.length ≤ 512) :
    WithinLimit pieces := by
  have hlongest : LONGEST_REPORT + 512 ≤ 4096 := by decide
  apply withinLimit_iff.mpr
  apply @Framer.fits_of_bounded _ _ _ _ _ LONGEST_REPORT
  · exact fun data hincomplete => (errorReportFront_short hincomplete).le
  · exact fun _ => rfl
  · intro piece hmem
    have := hpieces piece hmem
    omega

theorem pendingBytes_short {pieces : List Bytes} (hopen : (ReadAll {} pieces).closed = false) :
    (ReadAll {} pieces).pendingBytes.length ≤ 4096 := by
  have hlongest : LONGEST_REPORT ≤ 4096 := by decide
  have hkept := @Framer.feedAll_pending _ _ errorReportFramer handleReport 4096 (receiving {}) pieces
    fun _ => rfl
  rw [← receiving_ReadAll] at hkept
  have hshort := errorReportFront_short (hkept hopen)
  exact hshort.le.trans hlongest

/-- Every report of the phone gets through, however its bytes are cut, and on any
stream the cuts decide neither the reports nor the rejection. -/
theorem error_reports_delivered :
    (∀ reports : List Android.ErrorReport, (∀ report ∈ reports, Deliverable report) →
      ∃ parts, reports.mapM Android.ErrorReport.serialize = .ok parts ∧
        ∀ pieces : List Bytes, pieces.flatten = parts.flatten →
          (∀ piece ∈ pieces, 1 ≤ piece.length ∧ piece.length ≤ 512) →
          ReadAll {} pieces = ⟨[], reports.map reportOf, false⟩ ∧ WithinLimit pieces ∧
            ∀ front, front <+: pieces → (ReadAll {} front).closed = false ∧
              (ReadAll {} front).pendingBytes.length ≤ 4096) ∧
    ∀ pieces pieces' : List Bytes, pieces.flatten = pieces'.flatten →
      WithinLimit pieces → WithinLimit pieces' →
      (ReadAll {} pieces).received = (ReadAll {} pieces').received ∧
        (ReadAll {} pieces).closed = (ReadAll {} pieces').closed := by
  constructor
  · intro reports hreports
    refine ⟨_, serialize_mapM hreports, fun pieces hstream hpieces => ?_⟩
    have hlimit := withinLimit_of_short fun piece hmem => (hpieces piece hmem).2
    have hvalid : ∀ report ∈ reports.map reportOf, ValidErrorReport report := by
      intro report hmem
      obtain ⟨sent, hsent, rfl⟩ := List.mem_map.mp hmem
      exact reportOf_valid (hreports sent hsent)
    have hbytes : pieces.flatten = (reports.map reportOf).flatMap encodeErrorReport := by
      rw [hstream, List.flatMap_map, List.flatMap_def]
    obtain ⟨hstate, hclosed, hpending⟩ := @Framer.feedAll_eq_drainAll _ _ _ _ _ (receiving {}) _
      rfl rfl (withinLimit_iff.mp hlimit)
    have hempty : (receiving {}).pending = [] := rfl
    rw [← receiving_ReadAll, hempty, List.nil_append, hbytes, drainAll_reports hvalid]
      at hstate hclosed hpending
    have hdone : ReadAll {} pieces = ⟨[], reports.map reportOf, false⟩ := by
      have hleft := hpending rfl
      revert hstate hclosed hleft
      rcases ReadAll {} pieces with ⟨pendingBytes, received, closed⟩
      rintro rfl rfl rfl
      rfl
    refine ⟨hdone, hlimit, fun front hfront => ?_⟩
    have hopen : (ReadAll {} front).closed = false := by
      obtain ⟨rest, rfl⟩ := hfront
      by_contra hclosed
      have hstays := @Framer.feedAll_closed _ _ errorReportFramer handleReport 4096
        (ReadAll {} front).receiving (Bool.not_eq_false _ ▸ hclosed) rest
      rw [← receiving_ReadAll] at hstays
      have hwhole : ReadAll {} (front ++ rest) = (ReadAll {} front).ReadAll rest :=
        List.foldl_append
      rw [← hwhole, hdone] at hstays
      exact hclosed (congrArg Octets.Receiving.closed hstays).symm
    exact ⟨hopen, pendingBytes_short hopen⟩
  · intro pieces pieces' hstream hlimit hlimit'
    have hsame := @Framer.feedAll_cuts _ _ _ _ _ (receiving {}) _ _ rfl rfl
      (withinLimit_iff.mp hlimit) (withinLimit_iff.mp hlimit') hstream
    rw [← receiving_ReadAll, ← receiving_ReadAll] at hsame
    exact hsame

/-- A report of one letter and one letter, cut inside the first. -/
theorem error_reports_delivered_sample :
    ReadAll {} [[1, 0, 1], [69, 0, 1, 68]] =
        ⟨[], [reportOf ⟨.ERROR, literal "E", literal "D"⟩], false⟩ ∧
      (ReadAll {} [[1, 0, 1], [69, 0, 1, 68]]).received =
        (ReadAll {} [[1, 0, 1, 69], [0, 1, 68]]).received := by
  obtain ⟨hreports, hcuts⟩ := error_reports_delivered
  have hdeliverable : ∀ report ∈ [⟨.ERROR, literal "E", literal "D"⟩], Deliverable report := by
    rw [List.forall_mem_singleton]
    have hprintable : Android.DeviceDescriptor.Printable (literal "E") ∧
        Android.DeviceDescriptor.Printable (literal "D") := by
      decide +kernel
    exact ⟨by decide +kernel, hprintable.1, by decide +kernel, hprintable.2⟩
  obtain ⟨parts, hparts, hpieces⟩ := hreports _ hdeliverable
  have hserialized : List.mapM Android.ErrorReport.serialize [⟨.ERROR, literal "E", literal "D"⟩] =
      .ok [[1, 0, 1, 69, 0, 1, 68]] := by
    decide +kernel
  obtain rfl := Except.ok.inj (hparts.symm.trans hserialized)
  exact ⟨(hpieces _ rfl (by decide)).1, (hcuts _ _ rfl (withinLimit_of_short (by decide))
    (withinLimit_of_short (by decide))).1⟩

end Delivery

end ReadingConnection

end OpenCam.Windows
