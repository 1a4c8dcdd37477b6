import OpenCam.Linux.Controller

/-!
The life of a pairing secret in the loop of `main`: where it is drawn, where it is shown,
and which connections may use it.
-/

namespace OpenCam.Linux

open Octets Interaction Control

section Pass

variable {localIp clientIp : Bytes} {pairingSecret secret : Block 32}
  {pairingExpires expires next : Time} {trace : List MainEvent}
  {rest : ClientOutcome → MainProgram (Option Time)}

def MainOp.IsClient : MainOp → Prop
  | .handleClient _ _ _ => True
  | _ => False

/-- Neither a draw nor a connection. -/
def MainOp.Waits (op : MainOp) : Prop := op ≠ .randomSecret ∧ ¬ op.IsClient

theorem rotate_performs : rotate.Performs fun op => ¬ op.IsClient := by
  apply Prog.performs_perform_bind id
  rintro (_ | _)
  · trivial
  · exact Prog.performs_perform_bind id fun _ => trivial

theorem rotate_stands {op : MainOp} {next : op.Res → MainProgram (Option Time)}
    (hop : op.IsClient) : ¬ Runs rotate trace (.call op next) :=
  fun run => (run.performs rotate_performs).2.1 hop

theorem rotate_returns (run : Runs rotate trace (.ret (some next))) :
    ⟨.now, next - PAIRING_LIFETIME⟩ ∈ trace := by
  obtain ⟨drawn, tail, rfl, hdrawn⟩ := returns_perform_bind_iff.mp run
  cases drawn with
  | none => simp at hdrawn
  | some _ =>
      obtain ⟨now, last, rfl, hnow⟩ := returns_perform_bind_iff.mp hdrawn
      obtain ⟨rfl, hnext⟩ := runs_ret_iff.mp hnow
      cases hnext
      simp

/-- Where the end of a pass stands at a connection, it is one with the secret of the pass. -/
theorem takeClient_stands
    (run : Runs (takeClient pairingSecret pairingExpires) trace
      (.call (.handleClient clientIp secret expires) rest)) :
    secret = pairingSecret ∧ expires = pairingExpires ∧ ∀ event ∈ trace, event.op.Waits := by
  obtain ⟨accepted, tail, rfl, haccepted⟩ := (stands_perform_bind_iff (by simp)).mp run
  cases accepted with
  | interrupted => simp at haccepted
  | failed => simp at haccepted
  | client address =>
      obtain ⟨now, tail, rfl, hnow⟩ := (stands_perform_bind_iff (by simp)).mp haccepted
      split at hnow
      · obtain ⟨_, tail, rfl, hclosed⟩ := (stands_perform_bind_iff (by simp)).mp hnow
        exact absurd hclosed (rotate_stands trivial)
      · dsimp only at hnow
        rw [Prog.perform_bind, runs_call_iff] at hnow
        rcases hnow with ⟨rfl, hcall⟩ | ⟨outcome, tail, rfl, houtcome⟩
        · cases hcall
          simp [MainOp.Waits, MainOp.IsClient]
        · obtain ⟨_, tail, rfl, hclosed⟩ := (stands_perform_bind_iff (by simp)).mp houtcome
          split at hclosed
          · exact absurd hclosed (rotate_stands trivial)
          · simp at hclosed

theorem pairingPass_stands
    (run : Runs (pairingPass localIp pairingSecret pairingExpires) trace
      (.call (.handleClient clientIp secret expires) rest)) :
    secret = pairingSecret ∧ expires = pairingExpires ∧
      ⟨.showPairingQr localIp pairingSecret, true⟩ ∈ trace ∧ ∀ event ∈ trace, event.op.Waits := by
  obtain ⟨shown, tail, rfl, hshown⟩ := (stands_perform_bind_iff (by simp)).mp run
  cases shown with
  | false => simp at hshown
  | true =>
      obtain ⟨now, tail, rfl, hnow⟩ := (stands_perform_bind_iff (by simp)).mp hshown
      obtain ⟨ready, tail, rfl, hready⟩ := (stands_perform_bind_iff (by simp)).mp hnow
      split at hready
      · exact absurd hready (rotate_stands trivial)
      obtain ⟨later, tail, rfl, hlater⟩ := (stands_perform_bind_iff (by simp)).mp hready
      split at hlater
      · exact absurd hlater (rotate_stands trivial)
      cases ready with
      | ready revents =>
          obtain ⟨hsecret, hexpires, hwaits⟩ := takeClient_stands hlater
          refine ⟨hsecret, hexpires, by simp, ?_⟩
          simpa [MainOp.Waits, MainOp.IsClient] using hwaits
      | timeout => simp at hlater
      | interrupted => simp at hlater
      | failed => simp at hlater

/-- A pass hands on its own deadline or one that it has set. -/
theorem takeClient_returns
    (run : Runs (takeClient pairingSecret pairingExpires) trace (.ret (some next))) :
    next = pairingExpires ∨ ⟨.now, next - PAIRING_LIFETIME⟩ ∈ trace := by
  obtain ⟨accepted, tail, rfl, haccepted⟩ := returns_perform_bind_iff.mp run
  cases accepted with
  | interrupted => exact .inl (by simpa using (runs_ret_iff.mp haccepted).2)
  | failed => exact .inl (by simpa using (runs_ret_iff.mp haccepted).2)
  | client address =>
      obtain ⟨now, tail, rfl, hnow⟩ := returns_perform_bind_iff.mp haccepted
      split at hnow
      · obtain ⟨_, tail, rfl, hclosed⟩ := returns_perform_bind_iff.mp hnow
        exact .inr (by simp [rotate_returns hclosed])
      · obtain ⟨outcome, tail, rfl, houtcome⟩ := returns_perform_bind_iff.mp hnow
        obtain ⟨_, tail, rfl, hclosed⟩ := returns_perform_bind_iff.mp houtcome
        split at hclosed
        · exact .inr (by simp [rotate_returns hclosed])
        · exact .inl (by simpa using (runs_ret_iff.mp hclosed).2)

theorem pairingPass_returns
    (run : Runs (pairingPass localIp pairingSecret pairingExpires) trace (.ret (some next))) :
    next = pairingExpires ∨ ⟨.now, next - PAIRING_LIFETIME⟩ ∈ trace := by
  obtain ⟨shown, tail, rfl, hshown⟩ := returns_perform_bind_iff.mp run
  cases shown with
  | false => simp at hshown
  | true =>
      obtain ⟨now, tail, rfl, hnow⟩ := returns_perform_bind_iff.mp hshown
      obtain ⟨ready, tail, rfl, hready⟩ := returns_perform_bind_iff.mp hnow
      split at hready
      · exact .inr (by simp [rotate_returns hready])
      obtain ⟨later, tail, rfl, hlater⟩ := returns_perform_bind_iff.mp hready
      split at hlater
      · exact .inr (by simp [rotate_returns hlater])
      cases ready with
      | ready revents =>
          rcases takeClient_returns hlater with hsame | hset
          · exact .inl hsame
          · exact .inr (by simp [hset])
      | timeout => exact .inl (by simpa using (runs_ret_iff.mp hlater).2)
      | interrupted => exact .inl (by simpa using (runs_ret_iff.mp hlater).2)
      | failed => exact .inl (by simpa using (runs_ret_iff.mp hlater).2)

end Pass

section Loop

variable {localIp clientIp : Bytes} {secret : Block 32} {expires : Time}
  {trace past : List MainEvent} {rest : ClientOutcome → MainProgram Int}

/-- A connection with this secret and deadline is due: the deadline was set before the secret
was drawn, and since then the secret has been shown and no connection taken. -/
def Prepared (localIp : Bytes) (past : List MainEvent) (secret : Block 32) (expires : Time) :
    Prop :=
  ∃ before pass : List MainEvent, past = before ++ ⟨.randomSecret, some secret⟩ :: pass ∧
    ⟨.now, expires - PAIRING_LIFETIME⟩ ∈ before ∧
    ⟨.showPairingQr localIp secret, true⟩ ∈ pass ∧ ∀ event ∈ pass, event.op.Waits

/-- By induction on the passes: what came before the loop has set its deadline. -/
theorem pairingLoop_stands {passes : Nat} {pairingExpires : Time}
    (hset : ⟨.now, pairingExpires - PAIRING_LIFETIME⟩ ∈ past)
    (run : Runs (pairingLoop localIp passes pairingExpires) trace
      (.call (.handleClient clientIp secret expires) rest)) :
    Prepared localIp (past ++ trace) secret expires := by
  induction passes generalizing past trace pairingExpires with
  | zero => simp [pairingLoop] at run
  | succ passes ih =>
      obtain ⟨drawn, tail, rfl, hdrawn⟩ := (stands_perform_bind_iff (by simp)).mp run
      cases drawn with
      | none =>
          obtain ⟨_, tail, rfl, hclosed⟩ := (stands_perform_bind_iff (by simp)).mp hdrawn
          simp at hclosed
      | some pairingSecret =>
          rcases runs_bind_iff.mp hdrawn with ⟨middle, hpass, hvalue, hstop⟩ |
            ⟨deadline, pass, later, rfl, hpass, hlater⟩
          · -- the connection belongs to this pass
            cases middle with
            | ret value => exact absurd rfl (hvalue value)
            | throw error => cases hstop
            | unfinished => cases hstop
            | call op next =>
                cases hstop
                obtain ⟨rfl, rfl, hshown, hwaits⟩ := pairingPass_stands hpass
                exact ⟨past, tail, rfl, hset, hshown, hwaits⟩
          · cases deadline with
            | none =>
                obtain ⟨_, tail, rfl, hclosed⟩ := (stands_perform_bind_iff (by simp)).mp hlater
                simp at hclosed
            | some next =>
                have hnext : ⟨.now, next - PAIRING_LIFETIME⟩ ∈
                    past ++ ⟨.randomSecret, some pairingSecret⟩ :: pass := by
                  rcases pairingPass_returns hpass with rfl | hpassed
                  · simp [hset]
                  · simp [hpassed]
                have h := ih hnext hlater
                rw [List.append_assoc, List.cons_append] at h
                exact h

theorem main_stands {passes : Nat}
    (run : Runs (main localIp passes) trace (.call (.handleClient clientIp secret expires) rest)) :
    Prepared localIp trace secret expires := by
  obtain ⟨now, tail, rfl, hloop⟩ := (stands_perform_bind_iff (by simp)).mp run
  have hset : (⟨.now, now + PAIRING_LIFETIME - PAIRING_LIFETIME⟩ : MainEvent) ∈
      [(⟨.now, now⟩ : MainEvent)] := by simp
  exact pairingLoop_stands hset hloop

/-- Every connection of a run was due. -/
theorem main_connects {passes : Nat} {stop : MainProgram Int} {front back : List MainEvent}
    {outcome : ClientOutcome}
    (run : Runs (main localIp passes)
      (front ++ ⟨.handleClient clientIp secret expires, outcome⟩ :: back) stop) :
    Prepared localIp front secret expires := by
  obtain ⟨middle, hfront, hback⟩ := runs_append_iff.mp run
  obtain ⟨next, rfl, -⟩ := runs_cons_iff.mp hback
  exact main_stands hfront

end Loop

section Uses

variable {localIp : Bytes} {trace : List MainEvent}

def MainEvent.drawn : MainEvent → Option (Block 32)
  | ⟨.randomSecret, secret⟩ => secret
  | _ => none

/-- The secret of a connection that leaves `authenticated = true`. -/
def MainEvent.paired : MainEvent → Option (Block 32)
  | ⟨.handleClient _ secret _, outcome⟩ => if outcome.authenticated then some secret else none
  | _ => none

/-- The secrets that the loop has drawn, in order. -/
def draws (trace : List MainEvent) : List (Block 32) := trace.filterMap MainEvent.drawn

/-- The secrets that were used for a pairing, in order. -/
def pairings (trace : List MainEvent) : List (Block 32) := trace.filterMap MainEvent.paired

@[simp] theorem draws_append (front back : List MainEvent) :
    draws (front ++ back) = draws front ++ draws back := by simp [draws]

@[simp] theorem pairings_append (front back : List MainEvent) :
    pairings (front ++ back) = pairings front ++ pairings back := by simp [pairings]

theorem MainEvent.paired_eq_none {event : MainEvent} (h : ¬ event.op.IsClient) :
    event.paired = none := by
  obtain ⟨op, res⟩ := event
  cases op with
  | handleClient clientIp secret expires => exact absurd trivial h
  | _ => rfl

theorem pairings_eq_nil (h : ∀ event ∈ trace, event.op.Waits) : pairings trace = [] :=
  List.filterMap_eq_nil_iff.mpr fun event hmem => MainEvent.paired_eq_none (h event hmem).2

/-- Every pairing goes back to a draw of its own: by induction on the length, from a
connection back to where its secret was drawn. -/
theorem pairings_sublist (hprepared : ∀ front back clientIp secret expires outcome,
      trace = front ++ ⟨.handleClient clientIp secret expires, outcome⟩ :: back →
      Prepared localIp front secret expires) :
    (pairings trace).Sublist (draws trace) := by
  induction hlength : trace.length using Nat.strong_induction_on generalizing trace with
  | _ length ih =>
      subst hlength
      have hshorter : ∀ front rest : List MainEvent, trace = front ++ rest → rest ≠ [] →
          (pairings front).Sublist (draws front) := by
        rintro front rest rfl hrest
        have hlt : front.length < (front ++ rest).length := by
          simpa using List.length_pos_iff.mpr hrest
        apply ih _ hlt _ rfl
        rintro earlier back clientIp secret expires outcome rfl
        exact hprepared earlier (back ++ rest) clientIp secret expires outcome (by simp)
      rcases List.eq_nil_or_concat trace with rfl | ⟨front, last, rfl⟩
      · exact List.Sublist.refl _
      rw [List.concat_eq_append] at *
      by_cases hclient : last.op.IsClient
      · obtain ⟨op, outcome⟩ := last
        cases op with
        | handleClient clientIp secret expires =>
            obtain ⟨before, pass, rfl, -, -, hwaits⟩ :=
              hprepared front [] clientIp secret expires outcome rfl
            have hbefore := hshorter before
              (⟨.randomSecret, some secret⟩ :: pass ++
                [⟨.handleClient clientIp secret expires, outcome⟩]) (by simp) (by simp)
            have hpairings : pairings (⟨.randomSecret, some secret⟩ :: pass) = [] := by
              rw [pairings, List.filterMap_cons_none rfl]
              exact pairings_eq_nil hwaits
            have hused : (pairings [⟨.handleClient clientIp secret expires, outcome⟩]).Sublist
                (secret :: draws pass) := by
              cases hauthenticated : outcome.authenticated <;>
                simp [pairings, MainEvent.paired, hauthenticated]
            have hdraws : draws (⟨.randomSecret, some secret⟩ :: pass) = secret :: draws pass := rfl
            rw [pairings_append, pairings_append, hpairings, List.append_nil, draws_append,
              draws_append, hdraws]
            exact (hbefore.append hused).trans (List.sublist_append_left _ _)
        | _ => exact hclient.elim
      · have hnone : pairings [last] = [] := by
          simp [pairings, MainEvent.paired_eq_none hclient]
        rw [pairings_append, hnone, List.append_nil, draws_append]
        exact (hshorter front [last] rfl (by simp)).trans (List.sublist_append_left _ _)

end Uses

section Times

/-- What `main` does, and when. -/
abbrev Stamped := MainEvent × Time

/-- A reading of the clock is the time at which it is made. -/
def Stamped.Exact : Stamped → Prop
  | (⟨.now, reading⟩, time) => reading = time
  | _ => True

/-- The clock is monotone and read correctly. -/
structure Clocked (timed : List Stamped) : Prop where
  ordered : timed.Pairwise fun earlier later => earlier.2 ≤ later.2
  exact : ∀ stamped ∈ timed, Stamped.Exact stamped

/-- A connection gets as far as its expiry check and passes it, at this reading of the clock. -/
def PassesExpiryCheck (secret : Block 32) (pairingExpires : Time) (trace : Trace) (now : Time) :
    Prop :=
  ∃ nonces front back, trace = front ++ ⟨.now, now⟩ :: back ∧
    Runs (verifyClient secret) front (.ret (some nonces)) ∧ now < pairingExpires

variable {localIp : Bytes} {timed : List Stamped}

/-- Of a secret that is drawn once, the draw is the one the connection is due to. -/
theorem drawn_once {secret : Block 32} {before pass : List Stamped} {drawnAt time : Time}
    (hdistinct : (draws ((before ++ (⟨.randomSecret, some secret⟩, time) :: pass).map
      Prod.fst)).Nodup)
    (hdrawn : ((⟨.randomSecret, some secret⟩ : MainEvent), drawnAt) ∈
      before ++ (⟨.randomSecret, some secret⟩, time) :: pass) : drawnAt = time := by
  have hmem : ∀ part : List Stamped, ((⟨.randomSecret, some secret⟩ : MainEvent), drawnAt) ∈ part →
      secret ∈ draws (part.map Prod.fst) := by
    intro part hpart
    exact List.mem_filterMap.mpr ⟨_, List.mem_map_of_mem hpart, rfl⟩
  have hdraws : draws (⟨.randomSecret, some secret⟩ :: pass.map Prod.fst) =
      secret :: draws (pass.map Prod.fst) := rfl
  rw [List.map_append, draws_append, List.map_cons, hdraws, List.nodup_append] at hdistinct
  obtain ⟨-, hlater, hapart⟩ := hdistinct
  rcases List.mem_append.mp hdrawn with hbefore | hpass
  · exact absurd rfl (hapart secret (hmem before hbefore) secret List.mem_cons_self)
  · rcases List.mem_cons.mp hpass with hsame | hpass
    · exact (Prod.mk.inj hsame).2
    · exact absurd (hmem pass hpass) (List.nodup_cons.mp hlater).1

/-- A deadline is at most one lifetime behind the draw of the secret it belongs to. -/
theorem Prepared.deadline {front : List Stamped} {secret : Block 32} {expires drawnAt : Time}
    (h : Prepared localIp (front.map Prod.fst) secret expires) (hclock : Clocked timed)
    (hdistinct : (draws (timed.map Prod.fst)).Nodup) (hfront : front <+: timed)
    (hdrawn : ((⟨.randomSecret, some secret⟩ : MainEvent), drawnAt) ∈ timed) :
    expires ≤ drawnAt + PAIRING_LIFETIME := by
  obtain ⟨before, pass, hsplit, hset, -, -⟩ := h
  obtain ⟨earlier, later, rfl, rfl, hrest⟩ := List.map_eq_append_iff.mp hsplit
  obtain ⟨⟨event, time⟩, tail, rfl, hevent, rfl⟩ := List.map_eq_cons_iff.mp hrest
  obtain rfl : event = ⟨.randomSecret, some secret⟩ := hevent
  obtain ⟨back, rfl⟩ := hfront
  rw [List.append_assoc, List.cons_append] at *
  obtain rfl := drawn_once hdistinct hdrawn
  obtain ⟨⟨reading, stamp⟩, hmem, hreading⟩ := List.mem_map.mp hset
  obtain rfl : reading = ⟨.now, expires - PAIRING_LIFETIME⟩ := hreading
  have hstamp : expires - PAIRING_LIFETIME = stamp :=
    hclock.exact _ (List.mem_append_left _ hmem)
  have hle : stamp ≤ drawnAt :=
    (List.pairwise_append.mp hclock.ordered).2.2 _ hmem _ List.mem_cons_self
  rw [← hstamp] at hle
  exact sub_le_iff_le_add.mp hle

/-- In every run of the loop a secret is used for at most one pairing, only when it has been
shown, and no connection passes its expiry check later than a lifetime after the draw. What
the connections answer is open here; only the last part looks into their code. -/
theorem pairingSecrets (inetPton : Bytes → Bool) {passes sessionPasses : Nat}
    {stop : MainProgram Int} (run : Runs (main localIp passes) (timed.map Prod.fst) stop)
    (hclock : Clocked timed) (hdistinct : (draws (timed.map Prod.fst)).Nodup) :
    (pairings (timed.map Prod.fst)).Nodup ∧
      (∀ front back clientIp secret expires outcome,
        timed.map Prod.fst = front ++ ⟨.handleClient clientIp secret expires, outcome⟩ :: back →
        ⟨.showPairingQr localIp secret, true⟩ ∈ front) ∧
      ∀ front, front <+: timed → ∀ clientIp secret expires rest,
        Runs (main localIp passes) (front.map Prod.fst)
          (.call (.handleClient clientIp secret expires) rest) →
        ∀ trace connection now drawnAt,
          Runs (handleClient inetPton sessionPasses clientIp secret expires) trace connection →
          PassesExpiryCheck secret expires trace now →
          ((⟨.randomSecret, some secret⟩ : MainEvent), drawnAt) ∈ timed →
          now - drawnAt < PAIRING_LIFETIME := by
  have hprepared : ∀ front back clientIp secret expires outcome,
      timed.map Prod.fst = front ++ ⟨.handleClient clientIp secret expires, outcome⟩ :: back →
      Prepared localIp front secret expires := by
    intro front back clientIp secret expires outcome hsplit
    rw [hsplit] at run
    exact main_connects run
  refine ⟨(pairings_sublist hprepared).nodup hdistinct, ?_, ?_⟩
  · intro front back clientIp secret expires outcome hsplit
    obtain ⟨before, pass, rfl, -, hshown, -⟩ :=
      hprepared front back clientIp secret expires outcome hsplit
    simp [hshown]
  · intro front hfront clientIp secret expires rest hstands trace connection now drawnAt _ hpasses
      hdrawn
    have hdeadline := (main_stands hstands).deadline hclock hdistinct hfront hdrawn
    obtain ⟨_, _, _, -, -, hnow⟩ := hpasses
    exact sub_lt_iff_lt_add'.mpr (lt_of_lt_of_le hnow hdeadline)

/-- Thirty-two equal bytes. -/
def plainSecret (byte : UInt8) : Block 32 := ⟨List.replicate 32 byte, List.length_replicate⟩

/-- A pass in which a client comes: what it is answered, and the clock while it is here. -/
def clientPass (localIp : Bytes) (secret : Block 32) (expires : Time) (outcome : ClientOutcome)
    (begin : Time) : List Stamped :=
  [(⟨.showPairingQr localIp secret, true⟩, begin),
    (⟨.now, begin⟩, begin),
    (⟨.poll ((max 0 ((expires - begin).tdiv 1000000)).bmod (2 ^ 32)),
      .ready ⟨true, false, false, false, false⟩⟩, begin),
    (⟨.now, begin⟩, begin), (⟨.accept4, .client none⟩, begin), (⟨.now, begin⟩, begin),
    (⟨.handleClient (ascii "unknown") secret expires, outcome⟩, begin), (⟨.close, ()⟩, begin)]

/-- The first client pairs, and the next secret is shown. -/
def pairedRun : List Stamped :=
  (⟨.now, 0⟩, 0) :: (⟨.randomSecret, some (plainSecret 1)⟩, 1) ::
    (clientPass [] (plainSecret 1) PAIRING_LIFETIME ⟨true, true⟩ 2 ++
      [(⟨.randomSecret, some (plainSecret 2)⟩, 3), (⟨.now, 3⟩, 3),
        (⟨.randomSecret, some (plainSecret 3)⟩, 4), (⟨.showPairingQr [] (plainSecret 3), true⟩, 5)])

theorem pairedRun_runs : ∃ stop, Runs (main [] 2) (pairedRun.map Prod.fst) stop :=
  ⟨_, .step (.step (.step (.step (.step (.step (.step (.step (.step (.step (.step (.step (.step
    (.step (.here _))))))))))))))⟩

theorem pairedRun_clocked : Clocked pairedRun where
  ordered := by decide
  exact := by simp [pairedRun, clientPass, Stamped.Exact]

theorem pairingSecrets_paired :
    pairings (pairedRun.map Prod.fst) = [plainSecret 1] ∧
      (pairings (pairedRun.map Prod.fst)).Nodup := by
  obtain ⟨stop, hrun⟩ := pairedRun_runs
  have hdistinct : (draws (pairedRun.map Prod.fst)).Nodup := by decide
  exact ⟨rfl, (@pairingSecrets _ _ (fun _ => true) _ 0 _ hrun pairedRun_clocked hdistinct).1⟩

end Times

end OpenCam.Linux
