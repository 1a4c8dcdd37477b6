import OpenCam.Crypto.NonceCounter
import OpenCam.Linux.ControlProtocol
import OpenCam.Android.ControlProtocol

/-!
Nonces of the encrypted channel over sequences of `send` calls that may fail
anywhere. Both implementations take the nonce from a counter that advances
only behind a complete write, so they are the sealing counter of
`Crypto.NonceCounter`, and its theorem says when a nonce is used twice.
-/

namespace OpenCam.Control

open Octets Interaction Crypto

/-- One `send` call: its arguments and how the calls it makes turn out. -/
structure SendAttempt (τ : Type) where
  type : τ
  payload : Bytes
  timeoutMs : Int
  clock : Time
  encrypts : Bool
  headerWritten : Bool
  payloadWritten : Bool

namespace SendAttempt

variable {τ : Type}

/-- The environment of the call. Its state is the outcomes of the writes that
are still to come. -/
def answer (primitives : Primitives) (attempt : SendAttempt τ) :
    (op : Op) → List Bool → Option (op.Res × List Bool)
  | .now, writes => some (attempt.clock, writes)
  | .gcmEncrypt key nonce aad plaintext, writes =>
      some (if attempt.encrypts then some (primitives.encrypt key nonce aad plaintext) else none,
        writes)
  | .writeAll _ _ _, outcome :: writes => some (outcome, writes)
  | _, _ => none

def writes (attempt : SendAttempt τ) : List Bool := [attempt.headerWritten, attempt.payloadWritten]

/-- The encryption and both writes succeed. -/
def succeeds (attempt : SendAttempt τ) : Bool :=
  attempt.encrypts && attempt.headerWritten && attempt.payloadWritten

/-- The payload fits a frame. -/
def fits (attempt : SendAttempt τ) : Bool := attempt.payload.length + 24 ≤ 65536

/-- The call passes the implementation's size check and nothing in it fails. -/
def goesThrough (admits : SendAttempt τ → Bool) (attempt : SendAttempt τ) : Bool :=
  admits attempt && (attempt.fits && attempt.succeeds)

end SendAttempt

section Calls

variable {C τ : Type} (primitives : Primitives)
  (call : C → SendAttempt τ → Program C)

/-- Successive calls on one channel: all their actions and the channel left. -/
def sendAll : C → List (SendAttempt τ) → Trace × C
  | channel, [] => ([], channel)
  | channel, attempt :: rest =>
      let execution := (call channel attempt).execute (attempt.answer primitives) attempt.writes
      match execution.rest with
      | .ret channel' =>
          let (trace, final) := sendAll channel' rest
          (execution.trace ++ trace, final)
      | _ => (execution.trace, channel)

end Calls

/-- No nonce of the log is used under one key for two plaintexts or two headers. -/
def NonceUnique (log : List Encryption) : Prop :=
  ∀ left ∈ log, ∀ right ∈ log, left.key = right.key → left.nonce = right.nonce →
    left.aad = right.aad ∧ left.plaintext = right.plaintext

/-- The counter never goes back, whatever part of the calls has been made. -/
def NeverWraps {C τ : Type} (primitives : Primitives) (call : C → SendAttempt τ → Program C)
    (counter : C → Int) (channel : C) (attempts : List (SendAttempt τ)) : Prop :=
  ∀ front back, attempts = front ++ back →
    counter (sendAll primitives call channel front).2 ≤
      counter (sendAll primitives call channel attempts).2

/-- Between two calls that reach the encryption and differ in type byte or
payload, starting with the first of them, some call goes through. `admits` is
the implementation's size check and `limit` its last counter value. -/
def NoChangedRetry {τ : Type} (limit : Nat) (admits : SendAttempt τ → Bool) (typeByte : τ → UInt8)
    (attempts : List (SendAttempt τ)) : Prop :=
  ∀ before first between second after,
    attempts = before ++ first :: (between ++ second :: after) →
    before.countP (SendAttempt.goesThrough admits) < limit →
    admits first = true → admits second = true →
    (∀ attempt ∈ first :: between, attempt.goesThrough admits = false) →
    typeByte first.type = typeByte second.type ∧ first.payload = second.payload

section Refinement

variable {C τ : Type} {primitives : Primitives} {call : C → SendAttempt τ → Program C}
  {limit : Nat} {admits : SendAttempt τ → Bool} {typeByte : τ → UInt8}

/-- A call as a request to the sealing counter. -/
def sealRequest (admits : SendAttempt τ → Bool) (typeByte : τ → UInt8)
    (attempt : SendAttempt τ) : SealRequest (UInt8 × Bytes) where
  message := (typeByte attempt.type, attempt.payload)
  admitted := admits attempt
  completes := attempt.fits && attempt.succeeds

@[simp] theorem sealRequest_admitted (admits : SendAttempt τ → Bool) (typeByte : τ → UInt8)
    (attempt : SendAttempt τ) : (sealRequest admits typeByte attempt).admitted = admits attempt :=
  rfl

/-- The encryption that an entry of the counter's log stands for. -/
def sealingOf (key : Bytes) (serverSide : Bool) (entry : Nat × UInt8 × Bytes) : Encryption where
  key := key
  nonce := gcmNonce serverSide entry.1
  aad := encodeHeader entry.2.1 (entry.2.2.length + 24)
  plaintext := entry.2.2

theorem sealingOf_nonce_inj {key : Bytes} {serverSide : Bool} {left right : Nat × UInt8 × Bytes}
    (hleft : left.1 < 2 ^ 64) (hright : right.1 < 2 ^ 64)
    (h : (sealingOf key serverSide left).nonce = (sealingOf key serverSide right).nonce) :
    left.1 = right.1 :=
  (gcmNonce_inj hleft hright h).2

theorem sealingOf_message {key : Bytes} {serverSide : Bool} {left right : Nat × UInt8 × Bytes}
    (haad : (sealingOf key serverSide left).aad = (sealingOf key serverSide right).aad)
    (hplaintext : (sealingOf key serverSide left).plaintext =
      (sealingOf key serverSide right).plaintext) : left.2 = right.2 :=
  Prod.ext (encodeHeader_type haad) hplaintext

variable {Counts : Nat → C → Prop}

/-- One call does what one request does to the counter. `Counts n channel` says
that the channel's counter stands at `n`. -/
def Refines (primitives : Primitives) (call : C → SendAttempt τ → Program C) (limit : Nat)
    (admits : SendAttempt τ → Bool) (typeByte : τ → UInt8) (key : Bytes) (serverSide : Bool)
    (Counts : Nat → C → Prop) : Prop :=
  ∀ value channel attempt, Counts value channel → ∃ channel',
    ((call channel attempt).execute (attempt.answer primitives) attempt.writes).rest =
      .ret channel' ∧
    encryptions ((call channel attempt).execute (attempt.answer primitives) attempt.writes).trace =
      (sealedAt limit value (sealRequest admits typeByte attempt)).map (sealingOf key serverSide) ∧
    Counts (counterStep limit value (sealRequest admits typeByte attempt)) channel'

variable {key : Bytes} {serverSide : Bool}

/-- A run of calls is a run of the counter. -/
theorem sendAll_refines (hrefines : Refines primitives call limit admits typeByte key serverSide Counts)
    {value : Nat} {channel : C} (hcounts : Counts value channel)
    (attempts : List (SendAttempt τ)) :
    encryptions (sendAll primitives call channel attempts).1 =
      (sealLog limit value (attempts.map (sealRequest admits typeByte))).map
        (sealingOf key serverSide) ∧
    Counts (counterAfter limit value (attempts.map (sealRequest admits typeByte)))
      (sendAll primitives call channel attempts).2 := by
  induction attempts generalizing value channel with
  | nil => exact ⟨rfl, hcounts⟩
  | cons attempt rest ih =>
      obtain ⟨channel', hrest, htrace, hcounts'⟩ := hrefines value channel attempt hcounts
      obtain ⟨ihtrace, ihcounts⟩ := ih hcounts'
      unfold sendAll
      simp only [hrest]
      refine ⟨?_, ihcounts⟩
      rw [encryptions_append, htrace, ihtrace, List.map_cons, sealLog, List.map_append]

theorem counter_lt_of_mem {requests : List (SealRequest (UInt8 × Bytes))} {value : Nat}
    {entry : Nat × UInt8 × Bytes} (hentry : entry ∈ sealLog limit value requests)
    (hlimit : limit ≤ 2 ^ 64) : entry.1 < 2 ^ 64 := by
  obtain ⟨before, _, _, _, hlt, _, rfl⟩ := mem_sealLog.mp hentry
  exact lt_of_lt_of_le hlt hlimit

/-- The counter has not reached its limit while fewer calls than that went through. -/
theorem counter_lt_iff (before : List (SendAttempt τ)) :
    counterAfter limit 0 (before.map (sealRequest admits typeByte)) < limit ↔
      before.countP (SendAttempt.goesThrough admits) < limit := by
  have hcount : (before.map (sealRequest admits typeByte)).countP SealRequest.advances =
      before.countP (SendAttempt.goesThrough admits) := List.countP_map
  rw [counterAfter_eq (Nat.zero_le _), hcount]
  omega

/-- A channel that refines the counter reuses no nonce exactly when no retry
changes its message. -/
theorem nonceUnique_iff (hrefines : Refines primitives call limit admits typeByte key serverSide Counts)
    (hlimit : limit ≤ 2 ^ 64) {channel : C} (hcounts : Counts 0 channel)
    (attempts : List (SendAttempt τ)) :
    NonceUnique (encryptions (sendAll primitives call channel attempts).1) ↔
      NoChangedRetry limit admits typeByte attempts := by
  obtain ⟨hlog, -⟩ := sendAll_refines hrefines hcounts attempts
  have hsealings : NonceUnique (encryptions (sendAll primitives call channel attempts).1) ↔
      ∀ counter left right,
        (counter, left) ∈ sealLog limit 0 (attempts.map (sealRequest admits typeByte)) →
        (counter, right) ∈ sealLog limit 0 (attempts.map (sealRequest admits typeByte)) →
        left = right := by
    rw [hlog]
    constructor
    · intro hunique counter left right hleft hright
      obtain ⟨haad, hplaintext⟩ := hunique _ (List.mem_map_of_mem hleft) _
        (List.mem_map_of_mem hright) rfl rfl
      exact sealingOf_message haad hplaintext
    · intro hunique left hleft right hright _ hnonce
      obtain ⟨leftEntry, hleftEntry, rfl⟩ := List.mem_map.mp hleft
      obtain ⟨rightEntry, hrightEntry, rfl⟩ := List.mem_map.mp hright
      have hcounter := sealingOf_nonce_inj (counter_lt_of_mem hleftEntry hlimit)
        (counter_lt_of_mem hrightEntry hlimit) hnonce
      have hmessage := hunique leftEntry.1 leftEntry.2 rightEntry.2 hleftEntry
        (by rw [hcounter]; exact hrightEntry)
      exact ⟨by rw [sealingOf, sealingOf, hmessage], by rw [sealingOf, sealingOf, hmessage]⟩
  rw [hsealings, sealLog_unique_iff]
  constructor
  · intro hvain before first between second after hattempts hbefore hfirst hsecond hbetween
    have hmessage := hvain (before.map (sealRequest admits typeByte))
      (sealRequest admits typeByte first) (between.map (sealRequest admits typeByte))
      (sealRequest admits typeByte second) (after.map (sealRequest admits typeByte))
      (by rw [hattempts]; simp) ((counter_lt_iff before).mpr hbefore) hfirst hsecond
      (by
        intro request hrequest
        rw [← List.map_cons] at hrequest
        obtain ⟨attempt, hmem, rfl⟩ := List.mem_map.mp hrequest
        exact hbetween attempt hmem)
    exact Prod.mk.injEq _ _ _ _ ▸ hmessage
  · intro hretry before first between second after hrequests hbefore hfirst hsecond hbetween
    obtain ⟨before, rest, rfl, rfl, hfrom⟩ := List.map_eq_append_iff.mp hrequests
    obtain ⟨first, rest, rfl, rfl, hbehind⟩ := List.map_eq_cons_iff.mp hfrom
    obtain ⟨between, rest, rfl, rfl, htail⟩ := List.map_eq_append_iff.mp hbehind
    obtain ⟨second, after, rfl, rfl, rfl⟩ := List.map_eq_cons_iff.mp htail
    obtain ⟨htype, hpayload⟩ := hretry before first between second after rfl
      ((counter_lt_iff before).mp hbefore) hfirst hsecond (by
        intro attempt hmem
        exact hbetween _ (by
          rw [← List.map_cons]
          exact List.mem_map_of_mem hmem))
    exact Prod.ext htype hpayload

theorem neverWraps
    (hrefines : Refines primitives call limit admits typeByte key serverSide Counts)
    {counter : C → Int} (hcounter : ∀ value channel, Counts value channel → counter channel = value)
    {channel : C} (hcounts : Counts 0 channel) (attempts : List (SendAttempt τ)) :
    NeverWraps primitives call counter channel attempts := by
  rintro front back rfl
  obtain ⟨-, hfront⟩ := sendAll_refines hrefines hcounts front
  obtain ⟨-, hall⟩ := sendAll_refines hrefines hcounts (front ++ back)
  rw [hcounter _ _ hfront, hcounter _ _ hall, List.map_append, counterAfter_append]
  exact_mod_cast le_counterAfter

end Refinement

section Linux

open OpenCam.Linux

/-- The channel a caller holds after a call. -/
def linuxSend (channel : Linux.AuthenticatedChannel) (attempt : SendAttempt UInt8) :
    Program Linux.AuthenticatedChannel := do
  let result ← channel.send attempt.type attempt.payload attempt.timeoutMs
  .ret result.2

def linuxAdmits (attempt : SendAttempt UInt8) : Bool :=
  !(attempt.payload.length + ENCRYPTED_OVERHEAD > MAX_PAYLOAD)

theorem execute_deadlineFor (primitives : Primitives) (attempt : SendAttempt UInt8)
    (timeoutMs : Int) (writes : List Bool) :
    ∃ trace deadline, (deadlineFor timeoutMs).execute (attempt.answer primitives) writes =
      ⟨.ret deadline, trace, writes⟩ := by
  unfold deadlineFor
  split
  · exact ⟨_, _, rfl⟩
  · exact ⟨_, _, rfl⟩

theorem execute_sendFrame (primitives : Primitives) (attempt : SendAttempt UInt8) (type : UInt8)
    (wire : Bytes) (timeoutMs : Int) (hsize : wire.length ≤ 65536) (hwire : wire ≠ []) :
    ((sendFrame type wire timeoutMs).execute (attempt.answer primitives) attempt.writes).rest =
      .ret (attempt.headerWritten && attempt.payloadWritten) := by
  obtain ⟨trace, deadline, hdeadline⟩ :=
    execute_deadlineFor primitives attempt timeoutMs attempt.writes
  unfold sendFrame
  rw [if_neg (by simp only [MAX_PAYLOAD]; omega)]
  dsimp only
  rw [Prog.execute_bind _ (by rw [hdeadline]), hdeadline]
  dsimp only
  rw [Prog.perform_bind, Prog.execute_call _ attempt.headerWritten [attempt.payloadWritten] rfl]
  cases attempt.headerWritten with
  | false => rfl
  | true =>
      have hnonempty : wire.isEmpty = false := by simpa using hwire
      dsimp only
      rw [hnonempty]
      rfl

/-- A call that passes the checks encrypts once, under the next nonce, and
advances the counter if nothing fails. -/
theorem execute_linuxSend (primitives : Primitives) (channel : Linux.AuthenticatedChannel)
    (attempt : SendAttempt UInt8) (hsequence : channel.sendSequence ≠ 0xffffffffffffffff)
    (hfits : attempt.payload.length + 24 ≤ 65536) :
    ((linuxSend channel attempt).execute (attempt.answer primitives) attempt.writes).rest =
      .ret (if attempt.succeeds then { channel with sendSequence := channel.sendSequence + 1 }
        else channel) ∧
    encryptions
        ((linuxSend channel attempt).execute (attempt.answer primitives) attempt.writes).trace =
      [sealingOf channel.sendKey.val channel.serverSide
        (channel.sendSequence.toNat, attempt.type, attempt.payload)] := by
  unfold linuxSend
  rw [Linux.AuthenticatedChannel.send_eq hsequence hfits, Prog.bind_assoc, encryptGcm,
    Prog.perform_bind, Prog.execute_call _ _ attempt.writes rfl]
  cases hencrypts : attempt.encrypts with
  | false => exact ⟨by simp [SendAttempt.succeeds, hencrypts], rfl⟩
  | true =>
      simp only [↓reduceIte, Prog.bind_assoc]
      generalize primitives.encrypt _ _ _ _ = encrypted
      have hwire := execute_sendFrame primitives attempt attempt.type
        (beBytes 8 channel.sendSequence.toNat ++ encrypted.val) attempt.timeoutMs
        (by rw [List.length_append, beBytes_length, encrypted.property]; omega) (by simp [beBytes])
      have hquiet := encryptions_eq_nil ((Prog.execute_runs (attempt.answer primitives) _
        attempt.writes).performs (sendFrame_performs attempt.type
          (beBytes 8 channel.sendSequence.toNat ++ encrypted.val) attempt.timeoutMs)).1
      rw [Prog.execute_bind _ hwire]
      have hsucceeds : attempt.succeeds = (attempt.headerWritten && attempt.payloadWritten) := by
        rw [SendAttempt.succeeds, hencrypts, Bool.true_and]
      rw [hsucceeds]
      cases attempt.headerWritten && attempt.payloadWritten with
      | false =>
          refine ⟨rfl, ?_⟩
          rw [encryptions_cons, encryptions_append, hquiet]
          rfl
      | true =>
          refine ⟨rfl, ?_⟩
          rw [encryptions_cons, encryptions_append, hquiet]
          rfl

theorem linux_refines (primitives : Primitives) (key : Block 32) (serverSide : Bool) :
    Refines primitives linuxSend (2 ^ 64 - 1) linuxAdmits id key.val serverSide
      (fun value channel => channel.sendSequence.toNat = value ∧ channel.sendKey = key ∧
        channel.serverSide = serverSide) := by
  rintro _ channel attempt ⟨rfl, rfl, rfl⟩
  have hlimit : channel.sendSequence ≠ 0xffffffffffffffff ↔
      channel.sendSequence.toNat < 2 ^ 64 - 1 := by
    have hlt := channel.sendSequence.toNat_lt
    rw [← UInt64.toNat_inj.ne]
    change channel.sendSequence.toNat ≠ 2 ^ 64 - 1 ↔ _
    omega
  have hsize : linuxAdmits attempt = true ↔ attempt.payload.length + 24 ≤ 65536 := by
    rw [linuxAdmits, Bool.not_eq_true', decide_eq_false_iff_not, not_lt]
    rfl
  by_cases hpass : channel.sendSequence.toNat < 2 ^ 64 - 1 ∧ linuxAdmits attempt = true
  · obtain ⟨hlt, hadmits⟩ := hpass
    have hfits : attempt.fits = true := decide_eq_true (hsize.mp hadmits)
    obtain ⟨hrest, hlog⟩ := execute_linuxSend primitives channel attempt (hlimit.mpr hlt)
      (hsize.mp hadmits)
    refine ⟨_, hrest, ?_, ?_⟩
    · rw [hlog, sealedAt_of_pass hlt hadmits]
      rfl
    · have hadvances : (sealRequest linuxAdmits id attempt).advances = attempt.succeeds := by
        rw [SealRequest.advances, sealRequest, hadmits, hfits, Bool.true_and, Bool.true_and]
      cases hsucceeds : attempt.succeeds with
      | false =>
          rw [counterStep_of_fail (hadvances.trans hsucceeds)]
          exact ⟨rfl, rfl, rfl⟩
      | true =>
          rw [counterStep_of_pass hlt (hadvances.trans hsucceeds)]
          refine ⟨?_, rfl, rfl⟩
          change (channel.sendSequence + 1).toNat = channel.sendSequence.toNat + 1
          rw [UInt64.toNat_add, UInt64.toNat_one]
          omega
  · -- The call returns before it encrypts.
    have hreturn : channel.send attempt.type attempt.payload attempt.timeoutMs =
        .ret (false, channel) := by
      unfold Linux.AuthenticatedChannel.send
      split
      · rfl
      · next hsequence =>
          refine if_pos (lt_of_not_ge fun hshort => hpass ⟨hlimit.mp hsequence, hsize.mpr hshort⟩)
    unfold linuxSend
    rw [hreturn, sealedAt_of_stop hpass, counterStep_of_stop hpass]
    exact ⟨channel, rfl, rfl, rfl, rfl, rfl⟩

end Linux
section Android

open OpenCam.Android

/-- The channel a caller holds after a call. A call that throws has assigned nothing. -/
def androidSend (channel : Android.AuthenticatedChannel) (attempt : SendAttempt Int) :
    Program Android.AuthenticatedChannel := do
  match ← (channel.send attempt.type attempt.payload).attempt with
  | .ok channel' => .ret channel'
  | .error _ => .ret channel

def androidAdmits (attempt : SendAttempt Int) : Bool :=
  wrapInt (attempt.payload.length + ENCRYPTED_OVERHEAD) ≤ MAX_PAYLOAD

theorem androidAdmits_iff {attempt : SendAttempt Int} : androidAdmits attempt = true ↔
    wrapInt (attempt.payload.length + ENCRYPTED_OVERHEAD) ≤ MAX_PAYLOAD := by
  rw [androidAdmits, decide_eq_true_iff]

theorem execute_androidSend_returns {primitives : Primitives}
    {channel channel' : Android.AuthenticatedChannel} {attempt : SendAttempt Int}
    (h : ((channel.send attempt.type attempt.payload).execute (attempt.answer primitives)
      attempt.writes).rest = .ret channel') :
    ((androidSend channel attempt).execute (attempt.answer primitives) attempt.writes).rest =
      .ret channel' ∧
    ((androidSend channel attempt).execute (attempt.answer primitives) attempt.writes).trace =
      ((channel.send attempt.type attempt.payload).execute (attempt.answer primitives)
        attempt.writes).trace := by
  have hattempt := Prog.execute_attempt (attempt.answer primitives)
    (channel.send attempt.type attempt.payload) attempt.writes
  rw [h] at hattempt
  unfold androidSend
  have hok : ((channel.send attempt.type attempt.payload).attempt.execute
      (attempt.answer primitives) attempt.writes).rest = .ret (.ok channel') := by
    rw [hattempt]
    rfl
  rw [Prog.execute_bind _ hok, hattempt]
  exact ⟨rfl, List.append_nil _⟩

theorem execute_androidSend_throws {primitives : Primitives}
    {channel : Android.AuthenticatedChannel} {attempt : SendAttempt Int} {error : String}
    (h : ((channel.send attempt.type attempt.payload).execute (attempt.answer primitives)
      attempt.writes).rest = .throw error) :
    ((androidSend channel attempt).execute (attempt.answer primitives) attempt.writes).rest =
      .ret channel ∧
    ((androidSend channel attempt).execute (attempt.answer primitives) attempt.writes).trace =
      ((channel.send attempt.type attempt.payload).execute (attempt.answer primitives)
        attempt.writes).trace := by
  have hattempt := Prog.execute_attempt (attempt.answer primitives)
    (channel.send attempt.type attempt.payload) attempt.writes
  rw [h] at hattempt
  unfold androidSend
  have herror : ((channel.send attempt.type attempt.payload).attempt.execute
      (attempt.answer primitives) attempt.writes).rest = .ret (.error error) := by
    rw [hattempt]
    rfl
  rw [Prog.execute_bind _ herror, hattempt]
  exact ⟨rfl, List.append_nil _⟩

theorem execute_writeFrame (primitives : Primitives) (attempt : SendAttempt Int) (type : Int)
    (wire : Bytes) :
    ((writeFrame type wire).execute (attempt.answer primitives) attempt.writes).rest =
        .ret () ∧ (wire.length ≤ 65536 ∧ attempt.headerWritten = true ∧ attempt.payloadWritten = true)
      ∨ (∃ error, ((writeFrame type wire).execute (attempt.answer primitives) attempt.writes).rest =
        .throw error) ∧ ¬ (wire.length ≤ 65536 ∧ attempt.headerWritten = true ∧
          attempt.payloadWritten = true) := by
  unfold writeFrame require
  by_cases hsize : wire.length ≤ 65536
  · have hsmall : decide ((wire.length : Int) ≤ MAX_PAYLOAD) = true := by
      rw [decide_eq_true_eq, MAX_PAYLOAD]
      omega
    rw [hsmall]
    simp only [↓reduceIte, Prog.ret_bind, outputWrite, Prog.bind_assoc]
    rw [Prog.perform_bind, Prog.execute_call _ attempt.headerWritten [attempt.payloadWritten] rfl]
    cases attempt.headerWritten with
    | false => exact Or.inr ⟨⟨_, rfl⟩, by simp⟩
    | true =>
        cases attempt.payloadWritten with
        | false => exact Or.inr ⟨⟨_, rfl⟩, by simp⟩
        | true => exact Or.inl ⟨rfl, hsize, rfl, rfl⟩
  · have hlarge : decide ((wire.length : Int) ≤ MAX_PAYLOAD) = false := by
      rw [decide_eq_false_iff_not, MAX_PAYLOAD]
      omega
    rw [hlarge]
    exact Or.inr ⟨⟨_, rfl⟩, fun h => hsize h.1⟩

theorem execute_writeFrame_quiet (primitives : Primitives) (attempt : SendAttempt Int)
    (wire : Bytes) :
    encryptions ((writeFrame attempt.type wire).execute (attempt.answer primitives)
      attempt.writes).trace = [] := by
  have hruns := Prog.execute_runs (attempt.answer primitives) (writeFrame attempt.type wire)
    attempt.writes
  have hperforms := writeFrame_performs attempt.type wire
  have htransfers := hruns.performs hperforms
  exact encryptions_eq_nil htransfers.1

theorem execute_encrypt {primitives : Primitives} {attempt : SendAttempt Int}
    (hencrypts : attempt.encrypts = true) {α : Type} (key nonce aad plaintext : Bytes)
    (next : Bytes → Program α) :
    (encrypt key nonce aad plaintext >>= next).execute (attempt.answer primitives)
        attempt.writes =
      ⟨((next (primitives.encrypt key nonce aad plaintext).val).execute
          (attempt.answer primitives) attempt.writes).rest,
        ⟨.gcmEncrypt key nonce aad plaintext, some (primitives.encrypt key nonce aad plaintext)⟩ ::
          ((next (primitives.encrypt key nonce aad plaintext).val).execute
            (attempt.answer primitives) attempt.writes).trace,
        ((next (primitives.encrypt key nonce aad plaintext).val).execute
          (attempt.answer primitives) attempt.writes).state⟩ := by
  have hanswer : attempt.answer primitives (.gcmEncrypt key nonce aad plaintext) attempt.writes =
      some (some (primitives.encrypt key nonce aad plaintext), attempt.writes) := by
    simp [SendAttempt.answer, hencrypts]
  rw [encrypt, Prog.bind_assoc, Prog.perform_bind, Prog.execute_call _ _ _ hanswer]
  rfl

theorem execute_encrypt_fails {primitives : Primitives} {attempt : SendAttempt Int}
    (hencrypts : attempt.encrypts = false) {α : Type} (key nonce aad plaintext : Bytes)
    (next : Bytes → Program α) :
    (encrypt key nonce aad plaintext >>= next).execute (attempt.answer primitives)
        attempt.writes =
      ⟨.throw "Failed to encrypt control frame", [⟨.gcmEncrypt key nonce aad plaintext, none⟩],
        attempt.writes⟩ := by
  have hanswer : attempt.answer primitives (.gcmEncrypt key nonce aad plaintext) attempt.writes =
      some (none, attempt.writes) := by
    simp [SendAttempt.answer, hencrypts]
  rw [encrypt, Prog.bind_assoc, Prog.perform_bind, Prog.execute_call _ _ _ hanswer]
  rfl

/-- A call that passes the checks encrypts once, under the next nonce, and
returns if nothing fails. -/
theorem execute_android_send (primitives : Primitives) {channel : Android.AuthenticatedChannel}
    (attempt : SendAttempt Int) (hrange : channel.InRange)
    (hsequence : channel.sendSequence ≠ LONG_MAX_VALUE)
    (hsize : wrapInt (attempt.payload.length + ENCRYPTED_OVERHEAD) ≤ MAX_PAYLOAD) :
    (((channel.send attempt.type attempt.payload).execute (attempt.answer primitives)
        attempt.writes).rest = .ret { channel with sendSequence := channel.sendSequence + 1 } ∧
        (attempt.fits && attempt.succeeds) = true ∨
      (∃ error, ((channel.send attempt.type attempt.payload).execute (attempt.answer primitives)
        attempt.writes).rest = .throw error) ∧ (attempt.fits && attempt.succeeds) = false) ∧
    encryptions ((channel.send attempt.type attempt.payload).execute (attempt.answer primitives)
        attempt.writes).trace =
      [sealingOf channel.sendKey channel.serverSide
        (channel.sendSequence.toNat, toByte attempt.type, attempt.payload)] := by
  rw [Android.AuthenticatedChannel.send_eq attempt.type hrange hsequence hsize]
  cases hencrypts : attempt.encrypts with
  | false =>
      rw [execute_encrypt_fails hencrypts]
      exact ⟨Or.inr ⟨⟨_, rfl⟩, by simp [SendAttempt.succeeds, hencrypts]⟩, rfl⟩
  | true =>
      rw [execute_encrypt hencrypts]
      generalize primitives.encrypt _ _ _ _ = encrypted
      obtain ⟨wire, hwire⟩ : ∃ wire, beBytes 8 channel.sendSequence.toNat ++ encrypted.val = wire :=
        ⟨_, rfl⟩
      have hlength : wire.length = attempt.payload.length + 24 := by
        rw [← hwire, List.length_append, beBytes_length, encrypted.property]
        omega
      have hquiet := execute_writeFrame_quiet primitives attempt wire
      rw [hwire]
      rcases execute_writeFrame primitives attempt attempt.type wire with
        ⟨hwritten, hfits, hheader, hpayload⟩ | ⟨⟨error, hwritten⟩, hfails⟩
      · rw [Prog.execute_bind _ hwritten]
        have hgoes : (attempt.fits && attempt.succeeds) = true := by
          rw [hlength] at hfits
          simp [SendAttempt.fits, SendAttempt.succeeds, hencrypts, hheader, hpayload, hfits]
        refine ⟨Or.inl ⟨rfl, hgoes⟩, ?_⟩
        rw [encryptions_cons, encryptions_append, hquiet]
        rfl
      · rw [Prog.execute_bind_throw _ hwritten]
        have hstays : (attempt.fits && attempt.succeeds) = false := by
          rw [hlength] at hfails
          rw [Bool.eq_false_iff]
          intro hgoes
          simp only [SendAttempt.fits, SendAttempt.succeeds, Bool.and_eq_true,
            decide_eq_true_eq] at hgoes
          exact hfails ⟨hgoes.1, hgoes.2.1.2, hgoes.2.2⟩
        refine ⟨Or.inr ⟨⟨error, rfl⟩, hstays⟩, ?_⟩
        rw [encryptions_cons, hquiet]
        rfl

/-- What a caller holds after a call that passes the checks. -/
theorem execute_androidSend (primitives : Primitives) {channel : Android.AuthenticatedChannel}
    (attempt : SendAttempt Int) (hrange : channel.InRange)
    (hsequence : channel.sendSequence ≠ LONG_MAX_VALUE) (hadmits : androidAdmits attempt = true) :
    ((androidSend channel attempt).execute (attempt.answer primitives) attempt.writes).rest =
      .ret (if attempt.fits && attempt.succeeds then
          { channel with sendSequence := channel.sendSequence + 1 } else channel) ∧
    encryptions
        ((androidSend channel attempt).execute (attempt.answer primitives) attempt.writes).trace =
      [sealingOf channel.sendKey channel.serverSide
        (channel.sendSequence.toNat, toByte attempt.type, attempt.payload)] := by
  obtain ⟨houtcome, hlog⟩ := execute_android_send primitives attempt hrange hsequence
    (androidAdmits_iff.mp hadmits)
  rcases houtcome with ⟨hsend, hgoes⟩ | ⟨⟨error, hsend⟩, hgoes⟩
  · obtain ⟨hrest, htrace⟩ := execute_androidSend_returns hsend
    rw [hrest, htrace, hgoes]
    exact ⟨rfl, hlog⟩
  · obtain ⟨hrest, htrace⟩ := execute_androidSend_throws hsend
    rw [hrest, htrace, hgoes]
    exact ⟨rfl, hlog⟩

theorem android_refines (primitives : Primitives) (key : Bytes) (serverSide : Bool) :
    Refines primitives androidSend (2 ^ 63 - 1) androidAdmits toByte key serverSide
      (fun value channel => channel.sendSequence = value ∧ value ≤ 2 ^ 63 - 1 ∧
        channel.receiveSequence = 0 ∧ channel.sendKey = key ∧
        channel.serverSide = serverSide) := by
  rintro value channel attempt ⟨hvalue, hbound, hreceive, rfl, rfl⟩
  have hrange : channel.InRange := by
    constructor
    · rw [hvalue, LONG_MAX_VALUE]
      omega
    · rw [hreceive, LONG_MAX_VALUE]
      omega
  have hlimit : channel.sendSequence ≠ LONG_MAX_VALUE ↔ value < 2 ^ 63 - 1 := by
    rw [hvalue, LONG_MAX_VALUE]
    omega
  have hadmitted := sealRequest_admitted androidAdmits toByte attempt
  by_cases hpass : value < 2 ^ 63 - 1 ∧ (sealRequest androidAdmits toByte attempt).admitted = true
  · obtain ⟨hlt, hadmits⟩ := hpass
    rw [hadmitted] at hadmits
    obtain ⟨hrest, hlog⟩ := execute_androidSend primitives attempt hrange (hlimit.mpr hlt) hadmits
    refine ⟨_, hrest, ?_, ?_⟩
    · rw [hlog, sealedAt_of_pass hlt (hadmitted.trans hadmits), hvalue]
      rfl
    · have hadvances : (sealRequest androidAdmits toByte attempt).advances =
          (attempt.fits && attempt.succeeds) := by
        rw [SealRequest.advances, sealRequest, hadmits, Bool.true_and]
      cases hgoes : attempt.fits && attempt.succeeds with
      | false =>
          rw [counterStep_of_fail (hadvances.trans hgoes)]
          exact ⟨hvalue, hbound, hreceive, rfl, rfl⟩
      | true =>
          rw [counterStep_of_pass hlt (hadvances.trans hgoes)]
          refine ⟨?_, hlt, hreceive, rfl, rfl⟩
          change channel.sendSequence + 1 = _
          rw [hvalue]
          rfl
  · -- The call throws before it encrypts.
    have hthrow : ∃ error, channel.send attempt.type attempt.payload = .throw error := by
      unfold Android.AuthenticatedChannel.send
      split
      · exact ⟨_, rfl⟩
      · next hsequence =>
          have hlarge : ¬ wrapInt (attempt.payload.length + ENCRYPTED_OVERHEAD) ≤ MAX_PAYLOAD :=
            fun hsmall => hpass ⟨hlimit.mp hsequence, hadmitted.trans (androidAdmits_iff.mpr hsmall)⟩
          rw [require, if_neg (by simpa using hlarge)]
          exact ⟨_, rfl⟩
    obtain ⟨error, hthrow⟩ := hthrow
    have hsend : ((channel.send attempt.type attempt.payload).execute (attempt.answer primitives)
        attempt.writes).rest = .throw error := by
      rw [hthrow]
      rfl
    obtain ⟨hrest, htrace⟩ := execute_androidSend_throws hsend
    rw [hrest, htrace, hthrow, sealedAt_of_stop hpass, counterStep_of_stop hpass]
    exact ⟨channel, rfl, rfl, hvalue, hbound, hreceive, rfl, rfl⟩

end Android

/-- Over any sequence of calls on a new channel, the counter never wraps, and no
nonce is used for two messages exactly when no failed call is followed, before
the next one that goes through, by a call with another message. -/
theorem send_nonceUnique_iff (primitives : Primitives) (serverSide : Bool) :
    (∀ (sendKey receiveKey : Block 32) (attempts : List (SendAttempt UInt8)),
      NonceUnique (encryptions (sendAll primitives linuxSend
          ⟨sendKey, receiveKey, 0, 0, serverSide⟩ attempts).1) ∧
        NeverWraps primitives linuxSend (fun channel => channel.sendSequence.toNat)
          ⟨sendKey, receiveKey, 0, 0, serverSide⟩ attempts ↔
      NoChangedRetry (2 ^ 64 - 1) linuxAdmits id attempts) ∧
    (∀ (sessionKey sendKey receiveKey : Bytes) (attempts : List (SendAttempt Int)),
      NonceUnique (encryptions (sendAll primitives androidSend
          ⟨sessionKey, sendKey, receiveKey, 0, 0, serverSide⟩ attempts).1) ∧
        NeverWraps primitives androidSend (fun channel => channel.sendSequence)
          ⟨sessionKey, sendKey, receiveKey, 0, 0, serverSide⟩ attempts ↔
      NoChangedRetry (2 ^ 63 - 1) androidAdmits Android.toByte attempts) := by
  refine ⟨fun sendKey receiveKey attempts => ?_, fun sessionKey sendKey receiveKey attempts => ?_⟩
  · have hrefines := linux_refines primitives sendKey serverSide
    rw [and_iff_left (neverWraps hrefines (fun value channel hcounts => by rw [hcounts.1])
      ⟨rfl, rfl, rfl⟩ attempts)]
    exact nonceUnique_iff hrefines (by omega) ⟨rfl, rfl, rfl⟩ attempts
  · have hrefines := android_refines primitives sendKey serverSide
    rw [and_iff_left (neverWraps hrefines (fun value channel hcounts => hcounts.1)
      ⟨rfl, by omega, rfl, rfl, rfl⟩ attempts)]
    exact nonceUnique_iff hrefines (by omega) ⟨rfl, by omega, rfl, rfl, rfl⟩ attempts

section Retry

def zeroKey : Block 32 := ⟨List.replicate 32 0, List.length_replicate⟩

/-- The tags of one-byte messages under the zero key and nonce zero of either
side, of type 5 for the server and 6 for the client. -/
def zeroKeyTag (_ _ aad ciphertext : Bytes) : Block 16 :=
  if aad = encodeHeader 5 25 then
    if ciphertext = [0x72] then
      ⟨[210, 17, 59, 184, 169, 118, 243, 16, 54, 183, 80, 86, 193, 253, 30, 63], rfl⟩
    else ⟨[22, 101, 182, 191, 162, 212, 183, 134, 190, 72, 94, 176, 83, 90, 115, 122], rfl⟩
  else
    if ciphertext = [0xe9] then
      ⟨[7, 107, 54, 132, 181, 97, 120, 140, 249, 137, 26, 73, 236, 239, 197, 237], rfl⟩
    else ⟨[195, 31, 187, 131, 190, 195, 60, 26, 113, 118, 20, 175, 126, 72, 168, 168], rfl⟩

/-- AES-256-GCM on the messages of the retry. -/
def zeroKeyGcm : Primitives :=
  .counterMode (fun _ _ => zeroKey)
    (fun _ nonce _ => if nonce = gcmNonce true 0 then 0x73 else 0xe8) zeroKeyTag

/-- The body of one frame is not written in time, then another payload is sent. -/
def changedRetry {τ : Type} (type : τ) : List (SendAttempt τ) :=
  [⟨type, [1], 5000, 0, true, true, false⟩, ⟨type, [2], 5000, 0, true, true, true⟩]

theorem changedRetry_reuses_nonce :
    ¬ NonceUnique (encryptions (sendAll zeroKeyGcm linuxSend
      ⟨zeroKey, zeroKey, 0, 0, true⟩ (changedRetry 5)).1) ∧
    ¬ NonceUnique (encryptions (sendAll zeroKeyGcm androidSend
      ⟨zeroKey.val, zeroKey.val, zeroKey.val, 0, 0, false⟩ (changedRetry 6)).1) := by
  unfold NonceUnique
  constructor
  · decide +kernel
  · decide +kernel

end Retry

end OpenCam.Control
