import OpenCam.Bytes.BigEndian

/-!
Messages cut out of a byte stream that arrives in chunks. A framer looks at the
front of a buffer and finds a message, finds that no message can start so, or
cannot tell yet; its answer stays the same whatever arrives later. A receiver
that keeps what it has not consumed then hands on the same messages for every
way of cutting the stream, as long as its buffer is large enough.
-/

namespace Octets

variable {μ σ : Type}

/-- What is found at the front of a buffer. -/
inductive Parsed (μ : Type) where
  | incomplete
  | malformed
  | message (value : μ) (consumed : Nat)
deriving DecidableEq, Repr

structure Framer (μ : Type) where
  parse : Bytes → Parsed μ
  consumed : ∀ {data value size}, parse data = .message value size →
    0 < size ∧ size ≤ data.length
  message_stable : ∀ {data value size}, parse data = .message value size →
    ∀ more, parse (data ++ more) = .message value size
  malformed_stable : ∀ {data}, parse data = .malformed → ∀ more, parse (data ++ more) = .malformed

/-- The receiving end of a stream. Nothing is received once it is closed. -/
structure Receiving (σ : Type) where
  pending : Bytes
  state : σ
  closed : Bool
deriving DecidableEq, Repr

namespace Framer

variable (framer : Framer μ) (handle : σ → μ → σ × Bool) (limit : Nat)

/-- Hand on the messages at the front of the buffer. A message that its handler
refuses closes the receiver. -/
def drain : Nat → Bytes → σ → Receiving σ
  | 0, pending, state => ⟨pending, state, false⟩
  | rounds + 1, pending, state =>
      match framer.parse pending with
      | .incomplete => ⟨pending, state, false⟩
      | .malformed => ⟨pending, state, true⟩
      | .message value size =>
          if (handle state value).2 then
            drain rounds (pending.drop size) (handle state value).1
          else ⟨pending, (handle state value).1, true⟩

/-- A message takes at least one byte: as many rounds as there are bytes, and one
to see that nothing is left, are enough. -/
def drainAll (pending : Bytes) (state : σ) : Receiving σ :=
  framer.drain handle (pending.length + 1) pending state

/-- A chunk that would overfill the buffer closes the receiver. -/
def feed (receiving : Receiving σ) (chunk : Bytes) : Receiving σ :=
  if receiving.closed then receiving
  else if receiving.pending.length + chunk.length > limit then { receiving with closed := true }
  else framer.drainAll handle (receiving.pending ++ chunk) receiving.state

def feedAll (receiving : Receiving σ) (chunks : List Bytes) : Receiving σ :=
  chunks.foldl (framer.feed handle limit) receiving

/-- No chunk overfills the buffer of an open receiver. -/
def Fits (receiving : Receiving σ) : List Bytes → Prop
  | [] => True
  | chunk :: chunks =>
      (receiving.closed = false → receiving.pending.length + chunk.length ≤ limit) ∧
        Fits (framer.feed handle limit receiving chunk) chunks

variable {framer handle limit}

theorem drain_rounds (pending : Bytes) (state : σ) {rounds rounds' : Nat}
    (h : pending.length < rounds) (h' : pending.length < rounds') :
    framer.drain handle rounds pending state = framer.drain handle rounds' pending state := by
  induction rounds generalizing pending state rounds' with
  | zero => omega
  | succ rounds ih =>
      obtain ⟨rounds', rfl⟩ : ∃ other, rounds' = other + 1 := ⟨rounds' - 1, by omega⟩
      rw [drain, drain]
      cases hparse : framer.parse pending with
      | incomplete => rfl
      | malformed => rfl
      | message value size =>
          obtain ⟨hpos, hsize⟩ := framer.consumed hparse
          have hdrop : (pending.drop size).length = pending.length - size := List.length_drop
          have hrest := @ih (pending.drop size) (handle state value).1 rounds' (by omega) (by omega)
          simp only [hrest]

/-- The first message is handed on, then the rest is drained. -/
theorem drainAll_message {pending : Bytes} {value : μ} {size : Nat}
    (hparse : framer.parse pending = .message value size) (state : σ) :
    framer.drainAll handle pending state =
      if (handle state value).2 then
        framer.drainAll handle (pending.drop size) (handle state value).1
      else ⟨pending, (handle state value).1, true⟩ := by
  obtain ⟨hpos, hsize⟩ := framer.consumed hparse
  have hdrop : (pending.drop size).length = pending.length - size := List.length_drop
  have hrest := @drain_rounds _ _ framer handle (pending.drop size) (handle state value).1
    pending.length ((pending.drop size).length + 1) (by omega) (by omega)
  rw [drainAll, drain, hparse]
  simp only [hrest, drainAll]

theorem drainAll_incomplete {pending : Bytes} (hparse : framer.parse pending = .incomplete)
    (state : σ) : framer.drainAll handle pending state = ⟨pending, state, false⟩ := by
  rw [drainAll, drain, hparse]

theorem drainAll_malformed {pending : Bytes} (hparse : framer.parse pending = .malformed)
    (state : σ) : framer.drainAll handle pending state = ⟨pending, state, true⟩ := by
  rw [drainAll, drain, hparse]

/-- What an open receiver keeps is the beginning of a message. -/
theorem drainAll_pending (pending : Bytes) (state : σ)
    (hopen : (framer.drainAll handle pending state).closed = false) :
    framer.parse (framer.drainAll handle pending state).pending = .incomplete := by
  induction hlength : pending.length using Nat.strongRecOn generalizing pending state with
  | ind length ih =>
      cases hparse : framer.parse pending with
      | incomplete =>
          rw [drainAll_incomplete hparse]
          exact hparse
      | malformed =>
          rw [drainAll_malformed hparse] at hopen
          cases hopen
      | message value size =>
          obtain ⟨hpos, hsize⟩ := framer.consumed hparse
          rw [drainAll_message hparse] at hopen ⊢
          split at hopen
          · next haccepted =>
              rw [if_pos haccepted]
              exact ih _ (by rw [List.length_drop]; omega) _ _ hopen rfl
          · cases hopen

/-- Draining a stream is draining its beginning, and going on with what is left. -/
theorem drainAll_append (front back : Bytes) (state : σ) :
    let first := framer.drainAll handle front state
    let whole := framer.drainAll handle (front ++ back) state
    if first.closed then whole.closed = true ∧ whole.state = first.state
    else whole = framer.drainAll handle (first.pending ++ back) first.state := by
  induction hlength : front.length using Nat.strongRecOn generalizing front state with
  | ind length ih =>
      cases hparse : framer.parse front with
      | incomplete => simp [drainAll_incomplete hparse]
      | malformed =>
          simp [drainAll_malformed hparse, drainAll_malformed (framer.malformed_stable hparse back)]
      | message value size =>
          obtain ⟨hpos, hsize⟩ := framer.consumed hparse
          simp only [drainAll_message hparse,
            drainAll_message (framer.message_stable hparse back)]
          by_cases haccepted : (handle state value).2 = true
          · simp only [haccepted, if_true]
            rw [List.drop_append_of_le_length hsize]
            exact ih _ (by rw [List.length_drop]; omega) _ _ rfl
          · simp [haccepted]

/-- What an open receiver keeps is the beginning of a message, whatever came. -/
theorem feedAll_pending {receiving : Receiving σ} {chunks : List Bytes}
    (hpending : receiving.closed = false → framer.parse receiving.pending = .incomplete)
    (hopen : (framer.feedAll handle limit receiving chunks).closed = false) :
    framer.parse (framer.feedAll handle limit receiving chunks).pending = .incomplete := by
  induction chunks generalizing receiving with
  | nil => exact hpending hopen
  | cons chunk chunks ih =>
      refine ih (fun hfeed => ?_) hopen
      unfold feed at hfeed ⊢
      split_ifs at hfeed ⊢ with hclosed
      · exact hpending hfeed
      · exact drainAll_pending _ _ hfeed

/-- Nothing is received once the receiver is closed. -/
theorem feedAll_closed {receiving : Receiving σ} (hclosed : receiving.closed = true)
    (chunks : List Bytes) : framer.feedAll handle limit receiving chunks = receiving := by
  induction chunks with
  | nil => rfl
  | cons chunk chunks ih =>
      have hfeed : framer.feed handle limit receiving chunk = receiving := by
        rw [feed, if_pos hclosed]
      rw [feedAll, List.foldl_cons, hfeed]
      exact ih

/-- Receiving in chunks is draining the stream at once. -/
theorem feedAll_eq_drainAll {receiving : Receiving σ} {chunks : List Bytes}
    (hopen : receiving.closed = false) (hpending : framer.parse receiving.pending = .incomplete)
    (hfits : framer.Fits handle limit receiving chunks) :
    let whole := framer.drainAll handle (receiving.pending ++ chunks.flatten) receiving.state
    let received := framer.feedAll handle limit receiving chunks
    received.state = whole.state ∧ received.closed = whole.closed ∧
      (whole.closed = false → received.pending = whole.pending) := by
  induction chunks generalizing receiving with
  | nil =>
      obtain ⟨pending, state, closed⟩ := receiving
      obtain rfl : closed = false := hopen
      simp only [List.flatten_nil, List.append_nil, drainAll_incomplete hpending]
      exact ⟨rfl, rfl, fun _ => rfl⟩
  | cons chunk chunks ih =>
      obtain ⟨hroom, hlater⟩ := hfits
      have hfeed : framer.feed handle limit receiving chunk =
          framer.drainAll handle (receiving.pending ++ chunk) receiving.state := by
        have := hroom hopen
        rw [feed, hopen, if_neg Bool.false_ne_true, if_neg (by omega)]
      have happend := @drainAll_append _ _ framer handle (receiving.pending ++ chunk)
        chunks.flatten receiving.state
      rw [hfeed] at hlater
      simp only [List.flatten_cons, ← List.append_assoc, feedAll, List.foldl_cons, hfeed]
      cases hfirst : (framer.drainAll handle (receiving.pending ++ chunk)
          receiving.state).closed with
      | true =>
          simp only [hfirst, if_true] at happend
          have hrest := @feedAll_closed _ _ framer handle limit _ hfirst chunks
          rw [feedAll] at hrest
          rw [hrest, happend.1, happend.2, hfirst]
          exact ⟨rfl, rfl, nofun⟩
      | false =>
          simp only [hfirst, Bool.false_eq_true, if_false] at happend
          rw [happend]
          exact ih hfirst (drainAll_pending _ _ hfirst) hlater

/-- Every chunk found room behind what the open receiver had kept. -/
theorem fits_iff {receiving : Receiving σ} {chunks : List Bytes} :
    framer.Fits handle limit receiving chunks ↔
      ∀ front chunk, front ++ [chunk] <+: chunks →
        (framer.feedAll handle limit receiving front).closed = false →
        (framer.feedAll handle limit receiving front).pending.length + chunk.length ≤ limit := by
  induction chunks generalizing receiving with
  | nil =>
      refine ⟨fun _ front chunk hfront => ?_, fun _ => trivial⟩
      exact absurd (List.prefix_nil.mp hfront) (by simp)
  | cons first chunks ih =>
      rw [Fits, ih]
      constructor
      · rintro ⟨hroom, hlater⟩ front chunk hfront
        cases front with
        | nil =>
            obtain ⟨rfl, _⟩ := List.cons_prefix_cons.mp hfront
            exact hroom
        | cons head front =>
            obtain ⟨rfl, hrest⟩ := List.cons_prefix_cons.mp hfront
            exact hlater front chunk hrest
      · intro h
        refine ⟨h [] first (List.cons_prefix_cons.mpr ⟨rfl, List.nil_prefix⟩), ?_⟩
        intro front chunk hfront
        exact h (first :: front) chunk (List.cons_prefix_cons.mpr ⟨rfl, hfront⟩)

/-- How a stream is cut makes no difference to what is handed on. -/
theorem feedAll_cuts {receiving : Receiving σ} {chunks chunks' : List Bytes}
    (hopen : receiving.closed = false) (hpending : framer.parse receiving.pending = .incomplete)
    (hfits : framer.Fits handle limit receiving chunks)
    (hfits' : framer.Fits handle limit receiving chunks')
    (hstream : chunks.flatten = chunks'.flatten) :
    (framer.feedAll handle limit receiving chunks).state =
        (framer.feedAll handle limit receiving chunks').state ∧
      (framer.feedAll handle limit receiving chunks).closed =
        (framer.feedAll handle limit receiving chunks').closed := by
  obtain ⟨hstate, hclosed, _⟩ := feedAll_eq_drainAll hopen hpending hfits
  obtain ⟨hstate', hclosed', _⟩ := feedAll_eq_drainAll hopen hpending hfits'
  rw [hstate, hclosed, hstate', hclosed', hstream]
  exact ⟨rfl, rfl⟩

/-- A buffer that has room for a chunk behind every incomplete message is never
overfilled. -/
theorem fits_of_bounded {longest : Nat}
    (hlongest : ∀ data, framer.parse data = .incomplete → data.length ≤ longest)
    {receiving : Receiving σ} {chunks : List Bytes}
    (hpending : receiving.closed = false → framer.parse receiving.pending = .incomplete)
    (hchunks : ∀ chunk ∈ chunks, longest + chunk.length ≤ limit) :
    framer.Fits handle limit receiving chunks := by
  induction chunks generalizing receiving with
  | nil => trivial
  | cons chunk chunks ih =>
      have hroom : receiving.closed = false → receiving.pending.length + chunk.length ≤ limit := by
        intro hopen
        have hkept := hlongest _ (hpending hopen)
        have hchunk := hchunks chunk List.mem_cons_self
        omega
      refine ⟨hroom, ih ?_ fun later hlater => hchunks later (List.mem_cons_of_mem _ hlater)⟩
      exact @feedAll_pending _ _ _ _ _ _ [chunk] hpending

end Framer

end Octets
