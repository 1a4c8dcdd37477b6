import OpenCam.Linux.PairingSecrets

/-!
What becomes of the secret on the display when a pass of the loop in `main` ends. The
condition of the loop draws the next one whatever the reason, so a token outlives only
the pass in which it was shown.
-/

namespace OpenCam.Linux

open Octets Interaction Control

section Passes

/-- A pass of the loop: the secret, its deadline, when it was drawn, and what followed. -/
structure Pass where
  pairingSecret : Block 32
  pairingExpires : Time
  drawnAt : Time
  timed : List Stamped

namespace Pass

def events (pass : Pass) : List Stamped :=
  (⟨.randomSecret, some pass.pairingSecret⟩, pass.drawnAt) :: pass.timed

/-- The secret has been displayed. -/
def Shown (localIp : Bytes) (pass : Pass) : Prop :=
  ⟨.showPairingQr localIp pass.pairingSecret, true⟩ ∈ pass.timed.map Prod.fst

/-- The clock has been read at the deadline or behind it. -/
def Expired (pass : Pass) : Prop :=
  ∃ reading, pass.pairingExpires ≤ reading ∧ ⟨.now, reading⟩ ∈ pass.timed.map Prod.fst

/-- A connection has left `authenticated = true`. -/
def Paired (pass : Pass) : Prop := pairings (pass.timed.map Prod.fst) ≠ []

/-- The pass is a run of the loop's body. -/
def Stands (localIp : Bytes) (pass : Pass) (stop : MainProgram (Option Time)) : Prop :=
  Runs (pairingPass localIp pass.pairingSecret pass.pairingExpires) (pass.timed.map Prod.fst) stop

end Pass

/-- The passes that a loop makes from a deadline on: each but the last hands the deadline on
to the next. -/
inductive Passing (localIp : Bytes) : Time → List Pass → Prop where
  | none (expires : Time) : Passing localIp expires []
  | last (pass : Pass) {stop : MainProgram (Option Time)} (run : pass.Stands localIp stop) :
      Passing localIp pass.pairingExpires [pass]
  | next (pass : Pass) {expires : Time} {passes : List Pass}
      (run : pass.Stands localIp (.ret (some expires))) (rest : Passing localIp expires passes) :
      Passing localIp pass.pairingExpires (pass :: passes)

/-- The loop leaves with the socket closed, or for want of a secret. -/
def EndsRun (rest : List Stamped) : Prop :=
  ∀ stamped ∈ rest, stamped.1 = ⟨.close, ()⟩ ∨ stamped.1 = ⟨.randomSecret, none⟩

/-- The passes of a run, and its end. -/
structure PassesOf (localIp : Bytes) (expires : Time) (timed : List Stamped)
    (passes : List Pass) : Prop where
  passing : Passing localIp expires passes
  split : ∃ rest, timed = passes.flatMap Pass.events ++ rest ∧ EndsRun rest

variable {localIp : Bytes} {expires : Time} {timed : List Stamped} {stop : MainProgram Int}

theorem endsRun_nil : EndsRun [] := by simp [EndsRun]

theorem closing_ends (run : Runs (invoke .close >>= fun _ => (.ret 1 : MainProgram Int))
    (timed.map Prod.fst) stop) : EndsRun timed := by
  intro stamped hmem
  have hevent : stamped.1 ∈ timed.map Prod.fst := List.mem_map_of_mem hmem
  rw [Prog.perform_bind, runs_call_iff] at run
  rcases run with ⟨htrace, -⟩ | ⟨_, rest, htrace, hrest⟩
  · rw [htrace] at hevent
    cases hevent
  · obtain ⟨rfl, -⟩ := runs_ret_iff.mp hrest
    rw [htrace] at hevent
    exact .inl (List.mem_singleton.mp hevent)

/-- Every run of the loop is made of passes. -/
theorem pairingLoop_passes {passes : Nat}
    (run : Runs (pairingLoop localIp passes expires) (timed.map Prod.fst) stop) :
    ∃ made, PassesOf localIp expires timed made := by
  induction passes generalizing timed expires with
  | zero =>
      obtain ⟨hempty, -⟩ := runs_unfinished_iff.mp run
      rw [List.map_eq_nil_iff] at hempty
      exact ⟨[], .none expires, [], by simp [hempty], endsRun_nil⟩
  | succ passes ih =>
      rw [pairingLoop, Prog.perform_bind, runs_call_iff] at run
      rcases run with ⟨hempty, -⟩ | ⟨drawn, tail, htimed, hdrawn⟩
      · rw [List.map_eq_nil_iff] at hempty
        exact ⟨[], .none expires, [], by simp [hempty], endsRun_nil⟩
      obtain ⟨⟨event, drawnAt⟩, later, rfl, rfl, rfl⟩ := List.map_eq_cons_iff.mp htimed
      cases drawn with
      | none =>
          refine ⟨[], .none expires, _, rfl, ?_⟩
          intro stamped hmem
          rcases List.mem_cons.mp hmem with rfl | hlater
          · exact .inr rfl
          · exact closing_ends hdrawn stamped hlater
      | some pairingSecret =>
          rcases runs_bind_iff.mp hdrawn with ⟨middle, hpass, -, -⟩ |
            ⟨deadline, front, back, hsplit, hpass, hback⟩
          · -- the run stands inside this pass
            have hstands :
                Pass.Stands localIp ⟨pairingSecret, expires, drawnAt, later⟩ middle := hpass
            exact ⟨_, .last _ hstands, [], by simp [Pass.events], endsRun_nil⟩
          obtain ⟨inside, behind, rfl, rfl, rfl⟩ := List.map_eq_append_iff.mp hsplit
          cases deadline with
          | none =>
              have hstands : Pass.Stands localIp ⟨pairingSecret, expires, drawnAt, inside⟩
                (.ret none) := hpass
              exact ⟨_, .last _ hstands, behind, by simp [Pass.events], closing_ends hback⟩
          | some next =>
              obtain ⟨made, hpassing, rest, rfl, hrest⟩ := ih hback
              have hstands : Pass.Stands localIp ⟨pairingSecret, expires, drawnAt, inside⟩
                (.ret (some next)) := hpass
              exact ⟨_, .next _ hstands hpassing, rest, by simp [Pass.events], hrest⟩

/-- A run of `main` reads the clock, and makes its passes. -/
theorem main_passes {passes : Nat} {start time : Time}
    (run : Runs (main localIp passes) (((⟨.now, start⟩, time) :: timed).map Prod.fst) stop) :
    ∃ made, PassesOf localIp (start + PAIRING_LIFETIME) timed made := by
  obtain ⟨next, hnext, hloop⟩ := runs_cons_iff.mp run
  cases hnext
  exact pairingLoop_passes hloop

theorem Passing.stands {made : List Pass} (h : Passing localIp expires made) :
    ∀ pass ∈ made, ∃ stop, pass.Stands localIp stop := by
  induction h with
  | none => simp
  | last pass run => simpa using ⟨_, run⟩
  | next pass run _ ih => exact List.forall_mem_cons.mpr ⟨⟨_, run⟩, ih⟩

/-- Only the secret of a pass is used in it. -/
theorem Pass.Stands.paired {pass : Pass} {stop : MainProgram (Option Time)}
    (run : pass.Stands localIp stop) (hpaired : pass.Paired) :
    pass.pairingSecret ∈ pairings (pass.events.map Prod.fst) := by
  obtain ⟨secret, hmem⟩ := List.exists_mem_of_ne_nil _ hpaired
  obtain ⟨⟨op, outcome⟩, hevent, hused⟩ := List.mem_filterMap.mp hmem
  cases op with
  | handleClient clientIp used deadline =>
      obtain ⟨front, next, back, -, hfront, -⟩ := Runs.at_event run hevent
      obtain ⟨rfl, -⟩ := pairingPass_stands hfront
      have hsame : some pass.pairingSecret = some secret := by
        simp only [MainEvent.paired, Option.ite_none_right_eq_some] at hused
        exact hused.2
      rw [Option.some.inj hsame]
      exact hmem
  | _ => cases hused

/-- Each pass has made a draw of its own. -/
theorem secrets_sublist (made : List Pass) :
    (made.map Pass.pairingSecret).Sublist (draws ((made.flatMap Pass.events).map Prod.fst)) := by
  induction made with
  | nil => exact List.Sublist.refl _
  | cons pass made ih =>
      have hdraws : draws (pass.events.map Prod.fst) =
          pass.pairingSecret :: draws (pass.timed.map Prod.fst) := rfl
      rw [List.flatMap_cons, List.map_append, draws_append, hdraws, List.map_cons,
        List.cons_append]
      exact (ih.trans (List.sublist_append_right _ _)).cons_cons _

end Passes

section Token

variable {localIp : Bytes} {expires : Time} {timed : List Stamped} {made : List Pass}

/-- A pass that has neither expired nor paired leaves the secret and its deadline to the next;
and whatever has been shown is acceptable for a whole lifetime from its draw, unless it has
been used. -/
structure TokenKept (localIp : Bytes) (made : List Pass) : Prop where
  unchanged : ∀ front pass next back, made = front ++ pass :: next :: back →
    ¬ pass.Expired → ¬ pass.Paired →
    next.pairingSecret = pass.pairingSecret ∧ next.pairingExpires = pass.pairingExpires
  acceptable : ∀ front pass rest, made = front ++ pass :: rest → pass.Shown localIp →
    ∀ middle current back, pass :: rest = middle ++ current :: back →
    ∀ before event time after, current.events = before ++ (event, time) :: after →
    time < pass.drawnAt + PAIRING_LIFETIME →
    pass.pairingSecret ∉ pairings ((middle.flatMap Pass.events ++ before).map Prod.fst) →
    current.pairingSecret = pass.pairingSecret ∧ time < current.pairingExpires

/-- No pass follows one that has neither expired nor paired. -/
def Settled (made : List Pass) : Prop :=
  ∀ front pass next back, made = front ++ pass :: next :: back → pass.Expired ∨ pass.Paired

/-- Each deadline is one lifetime behind the draw of its secret. -/
def Prompt (made : List Pass) : Prop :=
  ∀ pass ∈ made, pass.pairingExpires = pass.drawnAt + PAIRING_LIFETIME

/-- Behind a pass that has expired no time is left of its secret's lifetime. -/
theorem Clocked.expired {pass : Pass} {made : List Pass} {stamped : Stamped}
    (hclock : Clocked ((pass :: made).flatMap Pass.events)) (hexpired : pass.Expired)
    (hmem : stamped ∈ made.flatMap Pass.events) : pass.pairingExpires ≤ stamped.2 := by
  obtain ⟨reading, hle, hread⟩ := hexpired
  obtain ⟨⟨event, time⟩, hpass, rfl⟩ := List.mem_map.mp hread
  have hevent : (⟨.now, reading⟩, time) ∈ pass.events := List.mem_cons_of_mem _ hpass
  rw [List.flatMap_cons] at hclock
  have htime : reading = time := hclock.exact _ (List.mem_append_left _ hevent)
  have hlater : time ≤ stamped.2 :=
    (List.pairwise_append.mp hclock.ordered).2.2 _ hevent _ hmem
  exact (hle.trans htime.le).trans hlater

theorem Clocked.mono {front whole : List Stamped} (h : Clocked whole) (hsub : front.Sublist whole) :
    Clocked front where
  ordered := h.ordered.sublist hsub
  exact := fun stamped hmem => h.exact stamped (hsub.subset hmem)

theorem acceptable_of_settled (passing : Passing localIp expires made) (hsettled : Settled made)
    (hprompt : Prompt made) (hclock : Clocked (made.flatMap Pass.events))
    {front rest middle back : List Pass} {pass current : Pass}
    (hmade : made = front ++ pass :: rest) (hcurrent : pass :: rest = middle ++ current :: back)
    {before after : List Stamped} {event : MainEvent} {time : Time}
    (hmoment : current.events = before ++ (event, time) :: after)
    (htime : time < pass.drawnAt + PAIRING_LIFETIME)
    (hunused : pass.pairingSecret ∉
      pairings ((middle.flatMap Pass.events ++ before).map Prod.fst)) :
    current.pairingSecret = pass.pairingSecret ∧ time < current.pairingExpires := by
  have hmem : pass ∈ made := by simp [hmade]
  have hexpires := hprompt pass hmem
  cases middle with
  | nil =>
      obtain ⟨rfl, -⟩ := List.cons.inj hcurrent
      rw [hexpires]
      exact ⟨rfl, htime⟩
  | cons first middle =>
      -- the pass has been followed by another
      exfalso
      obtain ⟨rfl, hrest⟩ := List.cons.inj hcurrent
      obtain ⟨next, later, hnext⟩ : ∃ next later, rest = next :: later := by
        cases middle with
        | nil => exact ⟨_, _, hrest⟩
        | cons second middle => exact ⟨_, _, hrest⟩
      have hsplit : made = front ++ pass :: next :: later := by rw [hmade, hnext]
      rcases hsettled front pass next later hsplit with hexpired | hpaired
      · have hpart : Clocked ((pass :: rest).flatMap Pass.events) := by
          apply hclock.mono
          rw [hmade, List.flatMap_append]
          exact List.sublist_append_right _ _
        have hevent : (event, time) ∈ rest.flatMap Pass.events := by
          apply List.mem_flatMap.mpr
          exact ⟨current, by simp [hrest], by simp [hmoment]⟩
        have hle := hpart.expired hexpired hevent
        rw [hexpires] at hle
        exact absurd htime (not_lt_of_ge hle)
      · obtain ⟨stop, hstands⟩ := passing.stands pass hmem
        apply hunused
        rw [List.flatMap_cons, List.append_assoc, List.map_append, pairings_append]
        exact List.mem_append_left _ (hstands.paired hpaired)

/-- In a run in which a pass is followed by another only when it has expired or paired, and
each secret is drawn when its deadline is set, tokens are kept. Where the draws differ, no
other run leaves the secret alone. -/
theorem pairingToken_kept (hpasses : PassesOf localIp expires timed made)
    (hclock : Clocked timed) :
    (Settled made ∧ Prompt made → TokenKept localIp made) ∧
      ((draws (timed.map Prod.fst)).Nodup → TokenKept localIp made → Settled made) := by
  obtain ⟨hpassing, rest, rfl, -⟩ := hpasses
  have hmade : Clocked (made.flatMap Pass.events) := hclock.mono (List.sublist_append_left _ _)
  constructor
  · rintro ⟨hsettled, hprompt⟩
    refine ⟨?_, ?_⟩
    · intro front pass next back hsplit hexpired hpaired
      exact absurd (hsettled front pass next back hsplit) (not_or.mpr ⟨hexpired, hpaired⟩)
    · intro front pass rest hsplit _ middle current back hcurrent before event time after hmoment
        htime hunused
      exact acceptable_of_settled hpassing hsettled hprompt hmade hsplit hcurrent
        hmoment htime hunused
  · intro hdistinct hkept front pass next back hsplit
    by_contra hretried
    obtain ⟨hexpired, hpaired⟩ := not_or.mp hretried
    obtain ⟨hsame, -⟩ := hkept.unchanged front pass next back hsplit hexpired hpaired
    rw [List.map_append, draws_append] at hdistinct
    have hsecrets := (secrets_sublist made).nodup (List.nodup_append.mp hdistinct).1
    rw [hsplit, List.map_append, List.map_cons, List.map_cons, hsame] at hsecrets
    have hpair := (List.nodup_append.mp hsecrets).2.1
    exact (List.nodup_cons.mp hpair).1 List.mem_cons_self

/-- A first pass with one client. -/
def firstPass (outcome : ClientOutcome) (behind : List Stamped) : Pass :=
  ⟨plainSecret 1, PAIRING_LIFETIME, 0,
    clientPass [] (plainSecret 1) PAIRING_LIFETIME outcome 0 ++ behind⟩

/-- A second secret on the display. -/
def secondPass (expires : Time) : Pass :=
  ⟨plainSecret 2, expires, 1, [(⟨.showPairingQr [] (plainSecret 2), true⟩, 1)]⟩

def refusedPasses : List Pass := [firstPass ⟨false, false⟩ [], secondPass PAIRING_LIFETIME]

def pairedPasses : List Pass :=
  [firstPass ⟨true, true⟩ [(⟨.randomSecret, some (plainSecret 3)⟩, 1), (⟨.now, 1⟩, 1)],
    secondPass (1 + PAIRING_LIFETIME)]

theorem secondPass_stands (expires : Time) : ∃ stop, (secondPass expires).Stands [] stop :=
  ⟨_, .step (.here _)⟩

theorem refusedPasses_of :
    PassesOf [] PAIRING_LIFETIME (refusedPasses.flatMap Pass.events) refusedPasses := by
  obtain ⟨stop, hlast⟩ := secondPass_stands PAIRING_LIFETIME
  have hfirst : (firstPass ⟨false, false⟩ []).Stands [] (.ret (some PAIRING_LIFETIME)) :=
    .step (.step (.step (.step (.step (.step (.step (.step (.here _))))))))
  exact ⟨.next _ hfirst (.last _ hlast), [], (List.append_nil _).symm, endsRun_nil⟩

theorem pairedPasses_of :
    PassesOf [] PAIRING_LIFETIME (pairedPasses.flatMap Pass.events) pairedPasses := by
  obtain ⟨stop, hlast⟩ := secondPass_stands (1 + PAIRING_LIFETIME)
  have hfirst : (firstPass ⟨true, true⟩
      [(⟨.randomSecret, some (plainSecret 3)⟩, 1), (⟨.now, 1⟩, 1)]).Stands []
      (.ret (some (1 + PAIRING_LIFETIME))) :=
    .step (.step (.step (.step (.step (.step (.step (.step (.step (.step (.here _))))))))))
  exact ⟨.next _ hfirst (.last _ hlast), [], (List.append_nil _).symm, endsRun_nil⟩

theorem refusedPasses_runs : ∃ stop, Runs (main [] 2)
    (((⟨.now, 0⟩, 0) :: refusedPasses.flatMap Pass.events).map Prod.fst) stop :=
  ⟨_, .step (.step (.step (.step (.step (.step (.step (.step (.step (.step (.step (.step
    (.here _))))))))))))⟩

theorem refusedPasses_clocked : Clocked ((⟨.now, 0⟩, 0) :: refusedPasses.flatMap Pass.events) where
  ordered := by decide
  exact := by
    simp [refusedPasses, firstPass, secondPass, Pass.events, clientPass, Stamped.Exact]

theorem pairedPasses_clocked : Clocked (pairedPasses.flatMap Pass.events) where
  ordered := by decide
  exact := by
    simp [pairedPasses, firstPass, secondPass, Pass.events, clientPass, Stamped.Exact]

/-- The first client does not authenticate, and its pass is followed by another secret. -/
theorem pairingToken_lost : ¬ ∀ (localIp : Bytes) (passes : Nat) (start time : Time)
    (timed : List Stamped) (stop : MainProgram Int) (made : List Pass),
    Runs (main localIp passes) (((⟨.now, start⟩, time) :: timed).map Prod.fst) stop →
    Clocked ((⟨.now, start⟩, time) :: timed) →
    PassesOf localIp (start + PAIRING_LIFETIME) timed made → TokenKept localIp made := by
  intro h
  obtain ⟨stop, hrun⟩ := refusedPasses_runs
  have hkept := h [] 2 0 0 _ stop _ hrun refusedPasses_clocked refusedPasses_of
  have hexpired : ¬ (firstPass ⟨false, false⟩ []).Expired := by
    rintro ⟨reading, hle, hread⟩
    have hzero : reading = 0 := by simpa [firstPass, clientPass] using hread
    rw [hzero] at hle
    exact absurd hle (by decide)
  have hpaired : ¬ (firstPass ⟨false, false⟩ []).Paired := fun h => h rfl
  have hsame := (hkept.unchanged [] _ _ [] rfl hexpired hpaired).1
  exact absurd hsame (by decide)

/-- The first client pairs, and the next secret is drawn when its deadline is set. -/
theorem pairingToken_kept_paired : TokenKept [] pairedPasses := by
  have hsettled : Settled pairedPasses := by
    intro front pass next back hsplit
    cases front with
    | nil =>
        obtain ⟨rfl, -⟩ := List.cons.inj hsplit
        exact .inr (List.cons_ne_nil _ _)
    | cons first front =>
        have hlength := congrArg List.length hsplit
        simp [pairedPasses] at hlength
        omega
  have hprompt : Prompt pairedPasses := by
    simp [Prompt, pairedPasses, firstPass, secondPass]
  exact (pairingToken_kept pairedPasses_of pairedPasses_clocked).1 ⟨hsettled, hprompt⟩

end Token

end OpenCam.Linux
