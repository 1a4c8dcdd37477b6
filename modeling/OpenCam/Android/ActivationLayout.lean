import OpenCam.Android.FilterState
import OpenCam.Android.LegacyLength

/-!
What `StreamOptions.deserialize` accepts is laid out as an activation message, and
the lengths by which the control stream is cut agree with that layout.
-/

namespace OpenCam.Android

open Octets Octets.Reader Jvm FilterRepository

namespace StreamOptions

section Accepted

theorem consumes_readBool :
    Consumes readBool (fun value bytes _ => bytes = boolByte value) := by
  unfold readBool
  apply (consumes_requireRemaining _ _).bind
  rintro _ _ _ rfl
  apply (consumes_unsigned 1).bind
  rintro bits _ _ ⟨rfl, _⟩
  split_ifs with hzero hone
  · exact consumes_pure fun _ => by rw [hzero]; rfl
  · exact consumes_pure fun _ => by rw [hone]; rfl
  · exact consumes_throw _

theorem consumes_readString : Consumes readString (fun text bytes _ =>
    ∃ raw, bytes = encodeText raw ∧ raw.length ≤ 128 ∧ decodeUtf8 raw = some text) := by
  unfold readString
  apply (consumes_requireRemaining _ _).bind
  rintro _ _ _ rfl
  apply (consumes_unsigned 2).bind
  rintro length _ _ ⟨rfl, _⟩
  apply (consumes_requireThat _ _).bind
  rintro _ _ _ ⟨rfl, hlimit⟩
  apply (consumes_requireRemaining _ _).bind
  rintro _ _ _ rfl
  apply (consumes_getBytes _).bind
  rintro _ raw _ ⟨rfl, rfl⟩
  cases htext : decodeUtf8 raw with
  | none => exact consumes_throw _
  | some text =>
      apply consumes_pure
      intro _
      refine ⟨raw, ?_, of_decide_eq_true hlimit, htext⟩
      simp only [encodeText, List.nil_append, List.append_nil]

theorem consumes_readFields : Consumes readFields (fun fields bytes _ =>
    fields.Accepted ∧ bytes = encodeFields fields) := by
  unfold readFields
  apply (consumes_requireRemaining _ _).bind
  rintro _ _ _ rfl
  apply consumes_getInt.bind
  rintro fps _ _ ⟨rfl, _⟩
  apply consumes_getInt.bind
  rintro width _ _ ⟨rfl, _⟩
  apply consumes_getInt.bind
  rintro height _ _ ⟨rfl, _⟩
  apply consumes_getInt.bind
  rintro cameraValue _ _ ⟨rfl, _⟩
  apply (consumes_requireThat _ _).bind
  rintro _ _ _ ⟨rfl, hcamera⟩
  apply consumes_readBool.bind
  rintro adaptiveBitrate _ _ rfl
  apply consumes_getInt.bind
  rintro bitrate _ _ ⟨rfl, _⟩
  apply consumes_getInt.bind
  rintro minBitrate _ _ ⟨rfl, _⟩
  apply consumes_getInt.bind
  rintro maxBitrate _ _ ⟨rfl, _⟩
  apply consumes_readBool.bind
  rintro stabilization _ _ rfl
  apply consumes_readBool.bind
  rintro flash _ _ rfl
  apply consumes_readBool.bind
  rintro h265 _ _ rfl
  apply consumes_getInt.bind
  rintro focusMode _ _ ⟨rfl, _⟩
  apply (consumes_requireThat _ _).bind
  rintro _ _ _ ⟨rfl, hfps⟩
  apply (consumes_requireThat _ _).bind
  rintro _ _ _ ⟨rfl, hresolution⟩
  apply (consumes_requireThat _ _).bind
  rintro _ _ _ ⟨rfl, hrates⟩
  apply (consumes_requireThat _ _).bind
  rintro _ _ _ ⟨rfl, hfocus⟩
  apply consumes_pure
  intro _
  simp only [Bool.and_eq_true, decide_eq_true_eq] at hcamera hfps hresolution hfocus
  simp only [bitrateInRange, Bool.and_eq_true, decide_eq_true_eq] at hrates
  obtain ⟨⟨⟨⟨hwidth, hwidth'⟩, hheight⟩, hheight'⟩, hpixels⟩ := hresolution
  obtain ⟨⟨⟨hbitrate, hmin⟩, hmax⟩, hordered⟩ := hrates
  refine ⟨⟨hfps, ⟨hwidth, hwidth'⟩, ⟨hheight, hheight'⟩, hpixels, hcamera, hbitrate, hmin, hmax,
    hordered, hfocus⟩, ?_⟩
  simp only [encodeFields, List.nil_append, List.append_nil, List.append_assoc]

variable {newInstance : FilterClass → Bool}

theorem consumes_readFilter : Consumes (readFilter newInstance) (fun value bytes _ =>
    ∃ filter, AdmittedFilter newInstance filter ∧ bytes = encodeFilter filter ∧
      value = (classOf filter.1, filter.2)) := by
  unfold readFilter
  apply consumes_readString.bind
  rintro name _ _ ⟨raw, rfl, hshort, hname⟩
  apply (consumes_requireRemaining _ _).bind
  rintro _ _ _ rfl
  apply consumes_getInt.bind
  rintro value _ _ ⟨rfl, _⟩
  apply (consumes_requireThat _ _).bind
  rintro _ _ _ ⟨rfl, hvalue⟩
  have hrange : -100 ≤ value ∧ value ≤ 100 := by simpa using hvalue
  cases hcreate : create newInstance name with
  | none => exact consumes_throw _
  | some filter =>
      apply (consumes_requireThat _ _).bind
      rintro _ _ _ ⟨rfl, hcategory⟩
      apply consumes_pure
      intro _
      cases hfind : find name with
      | none => simp only [create, hfind, reduceCtorEq] at hcreate
      | some info =>
          simp only [create, hfind, Option.ite_none_right_eq_some, Option.some.injEq] at hcreate
          obtain ⟨hnew, rfl⟩ := hcreate
          simp only [getCategory, hfind, decide_eq_true_eq] at hcategory
          refine ⟨(raw, value), ⟨hshort, hrange, name, info, hname, hfind, hcategory, hnew⟩, ?_, ?_⟩
          · simp only [encodeFilter, List.nil_append, List.append_nil]
          · simp only [classOf, hname, Option.bind_some, getClass, hfind, Option.map_some,
              Option.getD_some]

/-- What an accepted activation is made of. -/
structure Laid (newInstance : FilterClass → Bool) (activation : Activation)
    (filters : List (Bytes × Int)) (effect : Bytes) : Prop where
  fields : activation.fields.Accepted
  count : filters.length ≤ 128
  admitted : ∀ filter ∈ filters, AdmittedFilter newInstance filter
  short : effect.length ≤ 128
  effectName : decodeUtf8 effect = some activation.activeEffectName
  filters : activation.filters = filters.map fun filter => (classOf filter.1, filter.2)

theorem consumes_readActivation : Consumes (readActivation newInstance)
    (fun activation bytes rest => ∃ filters effect, Laid newInstance activation filters effect ∧
      bytes = encodeActivation activation.fields filters effect ∧ rest = []) := by
  unfold readActivation
  apply consumes_readFields.bind
  rintro fields _ _ ⟨hfields, rfl⟩
  apply (consumes_requireRemaining _ _).bind
  rintro _ _ _ rfl
  apply (consumes_unsigned 2).bind
  rintro filterCount _ _ ⟨rfl, _⟩
  apply (consumes_requireThat _ _).bind
  rintro _ _ _ ⟨rfl, hlimit⟩
  apply (consumes_readFilter.replicate filterCount).bind
  rintro values _ _ ⟨parts, hlength, rfl, hparts⟩
  obtain ⟨filters, hadmitted, hflat, hvalues⟩ : ∃ filters : List (Bytes × Int),
      (∀ filter ∈ filters, AdmittedFilter newInstance filter) ∧
        parts = filters.map encodeFilter ∧
        values = filters.map fun filter => (classOf filter.1, filter.2) := by
    clear hlength
    induction hparts with
    | nil => exact ⟨[], nofun, rfl, rfl⟩
    | cons hitem _ ih =>
        obtain ⟨filter, hfilter, rfl, rfl⟩ := hitem
        obtain ⟨filters, hadmitted, rfl, rfl⟩ := ih
        exact ⟨filter :: filters, List.forall_mem_cons.mpr ⟨hfilter, hadmitted⟩, rfl, rfl⟩
  subst hflat hvalues
  rw [List.length_map] at hlength
  subst hlength
  apply consumes_readString.bind
  rintro name _ _ ⟨effect, rfl, hshort, hname⟩
  apply consumes_finished
  refine ⟨filters, effect, ⟨hfields, of_decide_eq_true hlimit, hadmitted, hshort, hname, rfl⟩, ?_,
    rfl⟩
  simp only [encodeActivation, List.flatMap_def, List.nil_append, List.append_nil]

/-- What `deserialize` accepts is an activation message. -/
theorem deserialize_laid {fresh : Nat} {data : Bytes} {options : StreamOptions}
    (h : deserialize newInstance fresh data = .ok options) :
    ∃ activation filters effect effectClass, Laid newInstance activation filters effect ∧
      data = encodeActivation activation.fields filters effect ∧
      effectOf newInstance activation.activeEffectName = .ok effectClass ∧
      options = optionsOf fresh activation effectClass := by
  unfold deserialize at h
  split_ifs at h
  split at h
  · cases h
  · next activation stop hread =>
      obtain ⟨bytes, rest, hdata, _, filters, effect, hlaid, rfl, rfl⟩ :=
        consumes_readActivation data 0 activation stop (Nat.zero_le _) hread
      rw [List.drop_zero, List.append_nil] at hdata
      split at h
      · cases h
      · next effectClass heffect =>
          cases h
          exact ⟨activation, filters, effect, effectClass, hlaid, hdata, heffect, rfl⟩

end Accepted

end StreamOptions

section Framed

open StreamOptions PacketType

theorem bigEndianShort_at (front rest : Bytes) {value : Nat} (hvalue : value < 65536) :
    bigEndianShort (front ++ (beBytes 2 value ++ rest)) front.length = value := by
  have hhigh : unsignedByte (front ++ (beBytes 2 value ++ rest)) front.length = value / 256 := by
    simp [unsignedByte, beBytes]
    omega
  have hlow : unsignedByte (front ++ (beBytes 2 value ++ rest)) (front.length + 1) =
      value % 256 := by
    simp [unsignedByte, beBytes]
  rw [bigEndianShort, hhigh, hlow]
  omega

/-- The loop of the framer passes over the filters of the layout. -/
theorem activationFilters_encoded {filters : List (Bytes × Int)}
    (hshort : ∀ filter ∈ filters, filter.1.length ≤ 128) (front rest : Bytes) :
    activationFilters (front ++ (filters.flatMap encodeFilter ++ rest)) filters.length front.length =
      .ok (some (front.length + (filters.flatMap encodeFilter).length)) := by
  induction filters generalizing front with
  | nil => rfl
  | cons filter filters ih =>
      rw [List.forall_mem_cons] at hshort
      obtain ⟨hname, hothers⟩ := hshort
      have hstream : front ++ ((filter :: filters).flatMap encodeFilter ++ rest) =
          front ++ (beBytes 2 filter.1.length ++ (filter.1 ++ int32Bytes filter.2 ++
            (filters.flatMap encodeFilter ++ rest))) := by
        simp only [List.flatMap_cons, encodeFilter, encodeText, List.append_assoc]
      have hlength : (encodeFilter filter).length = 2 + filter.1.length + 4 := by
        simp only [encodeFilter, encodeText, List.length_append, beBytes_length, int32Bytes_length]
      have hnext := ih hothers (front ++ encodeFilter filter)
      have hbehind : (front ++ encodeFilter filter).length =
          front.length + 2 + filter.1.length + 4 := by
        rw [List.length_append, hlength]
        omega
      have hroom : front.length + 2 + filter.1.length + 4 ≤
          (front ++ ((filter :: filters).flatMap encodeFilter ++ rest)).length := by
        simp only [List.flatMap_cons, List.length_append, hlength]
        omega
      rw [hbehind, List.append_assoc, ← List.append_assoc (encodeFilter filter),
        ← List.flatMap_cons] at hnext
      rw [List.length_cons, activationFilters, if_neg (by omega)]
      rw [show bigEndianShort (front ++ ((filter :: filters).flatMap encodeFilter ++ rest))
        front.length = filter.1.length by
          rw [hstream]; exact bigEndianShort_at _ _ (by omega)]
      rw [if_neg (by omega), if_neg (by omega), hnext, List.flatMap_cons, List.length_append, hlength]
      simp only [Nat.add_assoc]

/-- An activation is cut at its end. -/
theorem activationLength_encoded {fields : Fields} {filters : List (Bytes × Int)} {effect : Bytes}
    (hcount : filters.length ≤ 128) (hshort : ∀ filter ∈ filters, filter.1.length ≤ 128)
    (heffect : effect.length ≤ 128) (type : UInt8) (rest : Bytes) :
    activationLength (type :: encodeActivation fields filters effect ++ rest) =
      .ok (some (1 + (encodeActivation fields filters effect).length)) := by
  have hstream : type :: encodeActivation fields filters effect ++ rest =
      (type :: encodeFields fields) ++ (beBytes 2 filters.length ++
        (filters.flatMap encodeFilter ++ (encodeText effect ++ rest))) := by
    simp only [encodeActivation, List.cons_append, List.append_assoc]
  have hfixed : (type :: encodeFields fields).length = 37 := by
    rw [List.length_cons, encodeFields_length]
  have hfilters := activationFilters_encoded hshort
    ((type :: encodeFields fields) ++ beBytes 2 filters.length) (encodeText effect ++ rest)
  rw [List.append_assoc, ← hstream, List.length_append, hfixed, beBytes_length] at hfilters
  have hlength : (type :: encodeActivation fields filters effect ++ rest).length =
      39 + (filters.flatMap encodeFilter).length + 2 + effect.length + rest.length := by
    rw [hstream]
    simp only [List.length_append, hfixed, beBytes_length, encodeText]
    omega
  have hcounted : bigEndianShort (type :: encodeActivation fields filters effect ++ rest) 37 =
      filters.length := by
    rw [hstream, ← hfixed]
    exact bigEndianShort_at _ _ (by omega)
  have hnamed : bigEndianShort (type :: encodeActivation fields filters effect ++ rest)
      (39 + (filters.flatMap encodeFilter).length) = effect.length := by
    have hfront : ((type :: encodeFields fields) ++ beBytes 2 filters.length ++
        filters.flatMap encodeFilter).length = 39 + (filters.flatMap encodeFilter).length := by
      simp only [List.length_append, hfixed, beBytes_length]
    have hat := @bigEndianShort_at ((type :: encodeFields fields) ++ beBytes 2 filters.length ++
      filters.flatMap encodeFilter) (effect ++ rest) effect.length (by omega)
    rw [hfront] at hat
    rw [hstream, ← hat]
    simp only [encodeText, List.append_assoc]
  rw [activationLength, if_neg (by omega), hcounted, if_neg (by omega), hfilters]
  simp only [ok_bind]
  rw [if_neg (by omega), hnamed, if_neg (by omega)]
  have hwhole : (encodeActivation fields filters effect).length =
      38 + (filters.flatMap encodeFilter).length + 2 + effect.length := by
    simp only [encodeActivation, List.length_append, encodeFields_length, beBytes_length,
      encodeText]
    omega
  have hend : 39 + (filters.flatMap encodeFilter).length + 2 + effect.length =
      1 + (encodeActivation fields filters effect).length := by omega
  rw [hend]

theorem fixedLength_activation (rest : Bytes) :
    fixedLength (UInt8.ofNat ACTIVATION :: rest) =
      activationLength (UInt8.ofNat ACTIVATION :: rest) := by
  have htype : unsignedByte (UInt8.ofNat ACTIVATION :: rest) 0 = ACTIVATION := rfl
  unfold fixedLength
  rw [htype]
  dsimp only
  rw [if_neg (by decide), if_neg (by decide), if_neg (by decide), if_neg (by decide),
    if_neg (by decide), if_neg (by decide), if_neg (by decide), if_pos rfl]

/-- The parser and the framer agree on where an activation ends, and the framer
waits until all of it is there. -/
theorem legacyMessageLength_accepted {newInstance : FilterClass → Bool} {fresh : Nat} {p : Bytes}
    {options : StreamOptions} (h : deserialize newInstance fresh p = .ok options) :
    (∀ s, legacyMessageLength (UInt8.ofNat ACTIVATION :: p ++ s) = .ok (some (1 + p.length))) ∧
      ∀ front, front <+: UInt8.ofNat ACTIVATION :: p → front ≠ UInt8.ofNat ACTIVATION :: p →
        legacyMessageLength front = .ok none := by
  obtain ⟨activation, filters, effect, _, hlaid, rfl, _⟩ := deserialize_laid h
  have hshort := fun filter hmem => (hlaid.admitted filter hmem).short
  have hbound := (encodeActivation_length activation.fields hshort hlaid.short).2
  have hcount := hlaid.count
  have hframed : ∀ s, legacyMessageLength (UInt8.ofNat ACTIVATION ::
      encodeActivation activation.fields filters effect ++ s) =
        .ok (some (1 + (encodeActivation activation.fields filters effect).length)) := by
    intro s
    have hfixed : fixedLength (UInt8.ofNat ACTIVATION ::
        encodeActivation activation.fields filters effect ++ s) =
          .ok (some (1 + (encodeActivation activation.fields filters effect).length)) := by
      rw [List.cons_append, fixedLength_activation, ← List.cons_append]
      exact activationLength_encoded hcount hshort hlaid.short _ s
    rw [legacyMessageLength, hfixed]
    simp only [List.cons_append, List.isEmpty_cons, Bool.false_eq_true, if_false, ok_bind]
    rw [if_neg (by omega), if_neg (by simp only [List.length_cons, List.length_append]; omega)]
  refine ⟨hframed, fun front hfront hproper => ?_⟩
  obtain ⟨missing, hmissing⟩ := hfront
  by_contra hsettled
  have hwhole := hframed []
  rw [List.append_nil, ← hmissing, legacyMessageLength_append hsettled] at hwhole
  have hinside := (legacyMessageLength_bound.2 _ hwhole).2
  have hlength := congrArg List.length hmissing
  rw [List.length_append, List.length_cons] at hlength
  have hnothing : missing = [] := List.length_eq_zero_iff.mp (by omega)
  rw [hnothing, List.append_nil] at hmissing
  exact hproper hmissing

/-- The activation with a correction filter and an effect. -/
theorem legacyMessageLength_accepted_sample :
    legacyMessageLength (UInt8.ofNat ACTIVATION :: Streamer.sampleActivation ++ [3]) =
        .ok (some (1 + Streamer.sampleActivation.length)) ∧
      legacyMessageLength (UInt8.ofNat ACTIVATION :: Streamer.sampleActivation).dropLast =
        .ok none := by
  obtain ⟨hbehind, hinside⟩ := legacyMessageLength_accepted (Streamer.deserialize_sample 0)
  exact ⟨hbehind [3], hinside _ (List.dropLast_prefix _) (by decide)⟩

end Framed

end OpenCam.Android
