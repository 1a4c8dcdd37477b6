import OpenCam.Bytes.Text
import Mathlib.Data.List.TakeWhile

/-!
The endpoint check of `security_validation.cpp` and the URL that `handleClient`
builds from an accepted endpoint. `inet_pton` is the C library's and enters as
a parameter.
-/

namespace OpenCam.Linux

open Octets

def rtspPrefix : Bytes := ascii "rtsp://"
def rtspsPrefix : Bytes := ascii "rtsps://"

section Endpoint

variable (inetPton : Bytes → Bool)

/-- The check of everything behind the scheme. -/
def isAllowedAuthorityAndPath (endpoint peerIp : Bytes) : Bool :=
  match find endpoint 47 with
  | none => false
  | some slash =>
      let path := endpoint.drop slash
      if path.length ≠ 38 ∨ rfindFrom path (ascii "/live/") 0 ≠ some 0 then false
      else if !(path.drop 6).all isLowerHex then false
      else
        let authority := endpoint.take slash
        if find authority 64 ≠ none ∨ find authority 63 ≠ none ∨ find authority 35 ≠ none then
          false
        else
          match rfind authority 58 with
          | none => false
          | some colon =>
              if authority.drop (colon + 1) ≠ ascii "8554" then false
              else
                let host := authority.take colon
                inetPton (cString host) && host == peerIp

def isAllowedRtspEndpoint (url peerIp : Bytes) : Bool :=
  if rfindFrom url rtspsPrefix 0 = some 0 then
    isAllowedAuthorityAndPath inetPton (url.drop rtspsPrefix.length) peerIp
  else if rfindFrom url rtspPrefix 0 = some 0 then
    isAllowedAuthorityAndPath inetPton (url.drop rtspPrefix.length) peerIp
  else false

/-- What the check leaves of an endpoint: the peer's host, the fixed port and
a path of 32 hex digits. -/
theorem allowed_endpoint_shape {endpoint peerIp : Bytes}
    (hallowed : isAllowedAuthorityAndPath inetPton endpoint peerIp = true) :
    ∃ identifier, endpoint = peerIp ++ ascii ":8554/live/" ++ identifier ∧
      identifier.length = 32 ∧ (∀ c ∈ identifier, isLowerHex c = true) := by
  unfold isAllowedAuthorityAndPath at hallowed
  split at hallowed
  · cases hallowed
  next slash hslash =>
  dsimp only at hallowed
  split_ifs at hallowed with hpath hhex hbad
  split at hallowed
  · cases hallowed
  next colon hcolon =>
  split_ifs at hallowed with hport
  obtain ⟨authority, rest, rfl, rfl, -⟩ := find_eq_some hslash
  rw [List.drop_left] at hpath hhex
  rw [List.take_left] at hcolon hport hallowed
  obtain ⟨host, port, rfl, rfl, -⟩ := rfind_eq_some hcolon
  rw [not_or, not_not, not_not, rfindFrom_zero] at hpath
  obtain ⟨hlength, identifier, hidentifier⟩ := hpath
  have hport' : port = ascii "8554" := by
    rw [not_not, ← List.drop_drop, List.drop_left] at hport
    exact hport
  have hpeer : host = peerIp := by
    have h := (Bool.and_eq_true _ _ ▸ hallowed).2
    simpa using h
  subst hpeer hport'
  rw [← hidentifier] at hlength hhex ⊢
  refine ⟨identifier, ?_, ?_, ?_⟩
  · simp [ascii]
  · simpa [ascii] using hlength
  · have : (ascii "/live/" ++ identifier).drop 6 = identifier := rfl
    rw [this] at hhex
    simpa using hhex

end Endpoint

section MediaUrl

/-- The URL `handleClient` opens: `descriptor.rtspUrl.substr(7)` behind the
credential. -/
def authenticatedRtspUrl (mediaPassword rtspUrl : Bytes) : Bytes :=
  ascii "rtsp://opencam:" ++ mediaPassword ++ ascii "@" ++ rtspUrl.drop 7

/-- The URL that names the validated peer, port and path. -/
def boundRtspUrl (mediaPassword peerIp identifier : Bytes) : Bytes :=
  ascii "rtsp://opencam:" ++ mediaPassword ++ ascii "@" ++ peerIp ++ ascii ":8554/live/" ++
    identifier

/-- The last 32 characters of an endpoint URL. -/
def pathIdentifier (rtspUrl : Bytes) : Bytes := rtspUrl.drop (rtspUrl.length - 32)

theorem pathIdentifier_append {front identifier : Bytes} (h : identifier.length = 32) :
    pathIdentifier (front ++ identifier) = identifier := by
  unfold pathIdentifier
  rw [List.length_append, h, Nat.add_sub_cancel, List.drop_left]

/-- An accepted URL is one of the two schemes, the peer, the port and an
identifier of 32 hex digits. -/
theorem isAllowedRtspEndpoint_shape {inetPton : Bytes → Bool} {url peerIp : Bytes}
    (hallowed : isAllowedRtspEndpoint inetPton url peerIp = true) :
    ∃ scheme, (scheme = rtspsPrefix ∨ scheme = rtspPrefix) ∧
      url = scheme ++ peerIp ++ ascii ":8554/live/" ++ pathIdentifier url ∧
      (pathIdentifier url).length = 32 ∧ (∀ c ∈ pathIdentifier url, isLowerHex c = true) := by
  have hshape : ∀ scheme, scheme <+: url →
      isAllowedAuthorityAndPath inetPton (url.drop scheme.length) peerIp = true →
      url = scheme ++ peerIp ++ ascii ":8554/live/" ++ pathIdentifier url ∧
      (pathIdentifier url).length = 32 ∧ (∀ c ∈ pathIdentifier url, isLowerHex c = true) := by
    intro scheme hscheme hrest
    obtain ⟨endpoint, rfl⟩ := hscheme
    rw [List.drop_left] at hrest
    obtain ⟨identifier, rfl, hlength, hhex⟩ := allowed_endpoint_shape inetPton hrest
    rw [← List.append_assoc, pathIdentifier_append hlength]
    exact ⟨by simp only [List.append_assoc], hlength, hhex⟩
  unfold isAllowedRtspEndpoint at hallowed
  split_ifs at hallowed with hrtsps hrtsp
  · exact ⟨rtspsPrefix, Or.inl rfl, hshape _ (rfindFrom_zero.mp hrtsps) hallowed⟩
  · exact ⟨rtspPrefix, Or.inr rfl, hshape _ (rfindFrom_zero.mp hrtsp) hallowed⟩

/-- For every accepted endpoint the URL that is opened is the validated one
exactly when the descriptor's URL uses the plain scheme: `substr(7)` cuts the
longer `rtsps://` one character short and leaves its last slash in front of
the host. -/
theorem authenticatedRtspUrl_bound_iff (inetPton : Bytes → Bool)
    (url peerIp mediaPassword : Bytes)
    (hallowed : isAllowedRtspEndpoint inetPton url peerIp = true) :
    authenticatedRtspUrl mediaPassword url =
        boundRtspUrl mediaPassword peerIp (pathIdentifier url) ↔
      rtspPrefix <+: url := by
  obtain ⟨scheme, hscheme, hurl, hlength, -⟩ := isAllowedRtspEndpoint_shape hallowed
  obtain ⟨identifier, hidentifier⟩ : ∃ identifier, pathIdentifier url = identifier := ⟨_, rfl⟩
  rw [hidentifier] at hurl hlength ⊢
  unfold authenticatedRtspUrl boundRtspUrl
  rcases hscheme with rfl | rfl
  · constructor
    · intro h
      have hlengths := congrArg List.length h
      rw [hurl] at hlengths
      simp [rtspsPrefix, ascii] at hlengths
    · rintro ⟨rest, hrest⟩
      rw [hurl] at hrest
      simp [rtspsPrefix, rtspPrefix, ascii] at hrest
  · constructor
    · intro _
      exact ⟨peerIp ++ ascii ":8554/live/" ++ identifier, by rw [hurl]; simp only [List.append_assoc]⟩
    · intro _
      have hcut : url.drop 7 = peerIp ++ ascii ":8554/live/" ++ identifier := by
        rw [hurl]
        simp only [List.append_assoc]
        rw [show 7 = rtspPrefix.length from rfl, List.drop_left]
      rw [hcut]
      simp only [List.append_assoc]

/-- Dotted decimal as `inet_pton(AF_INET, …)` documents it: four numbers of up
to three digits, each at most 255 and without leading zeros. -/
def dottedQuad (text : Bytes) : Bool :=
  let parts := text.splitOn 46
  let octet (digits : Bytes) : Bool :=
    1 ≤ digits.length && digits.length ≤ 3 && digits.all (fun c => 48 ≤ c && c ≤ 57) &&
      (digits.length == 1 || digits.head? != some 48) &&
      digits.foldl (fun value c => value * 10 + (c.toNat - 48)) 0 ≤ 255
  parts.length == 4 && parts.all octet

theorem authenticatedRtspUrl_bound_plain :
    authenticatedRtspUrl (List.replicate 64 97)
        (ascii "rtsp://10.0.0.2:8554/live/0123456789abcdef0123456789abcdef") =
      boundRtspUrl (List.replicate 64 97) (ascii "10.0.0.2")
        (pathIdentifier (ascii "rtsp://10.0.0.2:8554/live/0123456789abcdef0123456789abcdef")) :=
  (authenticatedRtspUrl_bound_iff dottedQuad
    (ascii "rtsp://10.0.0.2:8554/live/0123456789abcdef0123456789abcdef")
    (ascii "10.0.0.2") (List.replicate 64 97) (by decide)).mpr (by decide)

/-- An accepted `rtsps://` endpoint gives a URL whose host is empty. -/
theorem authenticatedRtspUrl_rtsps_unbound :
    ¬ ∀ url peerIp mediaPassword : Bytes,
      isAllowedRtspEndpoint dottedQuad url peerIp = true →
      (mediaPassword.length = 64 ∧ ∀ c ∈ mediaPassword, isLowerHex c = true) →
      authenticatedRtspUrl mediaPassword url =
        boundRtspUrl mediaPassword peerIp (pathIdentifier url) := by
  intro h
  have hbound := h (ascii "rtsps://10.0.0.2:8554/live/0123456789abcdef0123456789abcdef")
    (ascii "10.0.0.2") (List.replicate 64 97) (by decide)
    ⟨List.length_replicate, fun c hc => List.eq_of_mem_replicate hc ▸ by decide⟩
  revert hbound
  decide

end MediaUrl

section Language

/-- The characters at which the check cuts or refuses an authority. -/
def isSeparator (character : UInt8) : Bool :=
  character == 47 || character == 64 || character == 63 || character == 35

/-- One of the two schemes, the peer, the port and the path of an identifier. -/
def EndpointUrl (url peerIp : Bytes) : Prop :=
  ∃ scheme identifier, (scheme = rtspPrefix ∨ scheme = rtspsPrefix) ∧
    (identifier.length = 32 ∧ ∀ c ∈ identifier, isLowerHex c = true) ∧
    url = scheme ++ peerIp ++ ascii ":8554/live/" ++ identifier

variable {inetPton : Bytes → Bool} {endpoint peerIp url : Bytes}

/-- An accepted authority holds no separator, and its host is an address up to
its first NUL. -/
theorem allowed_host (hallowed : isAllowedAuthorityAndPath inetPton endpoint peerIp = true) :
    inetPton (cString peerIp) = true ∧ ∀ c ∈ peerIp, isSeparator c = false := by
  unfold isAllowedAuthorityAndPath at hallowed
  split at hallowed
  · cases hallowed
  next slash hslash =>
  dsimp only at hallowed
  split_ifs at hallowed with hpath hhex hbad
  split at hallowed
  · cases hallowed
  next colon hcolon =>
  split_ifs at hallowed with hport
  obtain ⟨authority, rest, rfl, rfl, hfirst⟩ := find_eq_some hslash
  rw [List.take_left] at hbad hcolon hallowed
  rw [Bool.and_eq_true, beq_iff_eq] at hallowed
  obtain ⟨hpton, rfl⟩ := hallowed
  refine ⟨hpton, fun c hc => ?_⟩
  have hmem := List.mem_of_mem_take hc
  rw [not_or, not_or, not_not, not_not, not_not, find_eq_none, find_eq_none, find_eq_none] at hbad
  have hne : ∀ other ∉ authority, c ≠ other := fun other hother heq => hother (heq ▸ hmem)
  simp [isSeparator, hne _ hfirst, hne _ hbad.1, hne _ hbad.2.1, hne _ hbad.2.2]

theorem not_mem_of_separator {character : UInt8} (hcharacter : isSeparator character = true)
    (h : ∀ c ∈ peerIp, isSeparator c = false) : character ∉ peerIp := by
  intro hmem
  rw [h character hmem] at hcharacter
  cases hcharacter

theorem allowed_of_endpoint {identifier : Bytes} (hpton : inetPton (cString peerIp) = true)
    (hseparator : ∀ c ∈ peerIp, isSeparator c = false)
    (hidentifier : identifier.length = 32 ∧ ∀ c ∈ identifier, isLowerHex c = true) :
    isAllowedAuthorityAndPath inetPton (peerIp ++ ascii ":8554/live/" ++ identifier) peerIp =
      true := by
  have hnot : ∀ character, isSeparator character = true → character ∉ ascii ":8554" →
      character ∉ peerIp ++ ascii ":8554" := by
    intro character hcharacter hport hmem
    rcases List.mem_append.mp hmem with hpeer | hother
    · exact not_mem_of_separator hcharacter hseparator hpeer
    · exact hport hother
  have hcut : peerIp ++ ascii ":8554/live/" ++ identifier =
      (peerIp ++ ascii ":8554") ++ 47 :: (ascii "live/" ++ identifier) := by simp [ascii]
  have hslash := @find_append _ (ascii "live/" ++ identifier) _ (hnot 47 (by decide) (by decide))
  have hcolon : rfind (peerIp ++ ascii ":8554") 58 = some peerIp.length :=
    rfind_append (show (58 : UInt8) ∉ ascii "8554" by decide)
  have hlive : rfindFrom (47 :: (ascii "live/" ++ identifier)) (ascii "/live/") 0 = some 0 :=
    rfindFrom_zero.mpr ⟨identifier, rfl⟩
  have hlength : (47 :: (ascii "live/" ++ identifier)).length = 38 := by
    simp [ascii, hidentifier.1]
  have hhex : ((47 :: (ascii "live/" ++ identifier)).drop 6).all isLowerHex = true := by
    simpa [ascii] using hidentifier.2
  have hat := find_eq_none.mpr (hnot 64 (by decide) (by decide))
  have hquestion := find_eq_none.mpr (hnot 63 (by decide) (by decide))
  have hhash := find_eq_none.mpr (hnot 35 (by decide) (by decide))
  have hport : (peerIp ++ ascii ":8554").drop (peerIp.length + 1) = ascii "8554" := by
    rw [← List.drop_drop, List.drop_left]
    rfl
  rw [hcut, isAllowedAuthorityAndPath, hslash]
  dsimp only
  rw [List.drop_left, List.take_left, if_neg (by simp [hlength, hlive]), hhex,
    if_neg (by decide), if_neg (by simp [hat, hquestion, hhash]), hcolon]
  dsimp only
  rw [hport, if_neg (by simp), List.take_left, hpton, beq_self_eq_true, Bool.and_self]

theorem isAllowedAuthorityAndPath_iff :
    isAllowedAuthorityAndPath inetPton endpoint peerIp = true ↔
      inetPton (cString peerIp) = true ∧ (∀ c ∈ peerIp, isSeparator c = false) ∧
      ∃ identifier, (identifier.length = 32 ∧ ∀ c ∈ identifier, isLowerHex c = true) ∧
        endpoint = peerIp ++ ascii ":8554/live/" ++ identifier := by
  constructor
  · intro hallowed
    obtain ⟨hpton, hseparator⟩ := allowed_host hallowed
    obtain ⟨identifier, hendpoint, hidentifier⟩ := allowed_endpoint_shape inetPton hallowed
    exact ⟨hpton, hseparator, identifier, hidentifier, hendpoint⟩
  · rintro ⟨hpton, hseparator, identifier, hidentifier, rfl⟩
    exact allowed_of_endpoint hpton hseparator hidentifier

/-- The scheme test takes one of the two prefixes off. -/
theorem isAllowedRtspEndpoint_scheme :
    isAllowedRtspEndpoint inetPton url peerIp = true ↔
      ∃ scheme endpoint, (scheme = rtspPrefix ∨ scheme = rtspsPrefix) ∧
        url = scheme ++ endpoint ∧ isAllowedAuthorityAndPath inetPton endpoint peerIp = true := by
  have hdiffer : ∀ endpoint other, rtspPrefix ++ endpoint ≠ rtspsPrefix ++ other := by
    intro endpoint other h
    simp [rtspPrefix, rtspsPrefix, ascii] at h
  unfold isAllowedRtspEndpoint
  simp only [rfindFrom_zero]
  split_ifs with hrtsps hrtsp
  · obtain ⟨endpoint, rfl⟩ := hrtsps
    rw [List.drop_left]
    refine ⟨fun h => ⟨_, endpoint, .inr rfl, rfl, h⟩, ?_⟩
    rintro ⟨scheme, other, rfl | rfl, hurl, h⟩
    · exact absurd hurl.symm (hdiffer _ _)
    · exact List.append_cancel_left hurl ▸ h
  · obtain ⟨endpoint, rfl⟩ := hrtsp
    rw [List.drop_left]
    refine ⟨fun h => ⟨_, endpoint, .inl rfl, rfl, h⟩, ?_⟩
    rintro ⟨scheme, other, rfl | rfl, hurl, h⟩
    · exact List.append_cancel_left hurl ▸ h
    · exact absurd hurl (hdiffer _ _)
  · refine iff_of_false id ?_
    rintro ⟨scheme, endpoint, rfl | rfl, rfl, -⟩
    · exact hrtsp (List.prefix_append _ _)
    · exact hrtsps (List.prefix_append _ _)

theorem mem_intercalate {α : Type} {separator : List α} {parts : List (List α)} {x : α}
    (h : x ∈ separator.intercalate parts) : x ∈ separator ∨ ∃ part ∈ parts, x ∈ part := by
  induction parts with
  | nil => cases h
  | cons part parts ih =>
      cases parts with
      | nil => exact .inr ⟨part, List.mem_cons_self, by simpa using h⟩
      | cons other parts =>
          rw [List.intercalate_cons_cons, List.mem_append, List.mem_append] at h
          rcases h with (hpart | hseparator) | hlater
          · exact .inr ⟨part, List.mem_cons_self, hpart⟩
          · exact .inl hseparator
          · exact (ih hlater).imp_right fun ⟨later, hmem, hx⟩ =>
              ⟨later, List.mem_cons_of_mem _ hmem, hx⟩

/-- An address holds digits and dots only. -/
theorem dottedQuad_characters (h : dottedQuad peerIp = true) :
    ∀ c ∈ peerIp, c = 46 ∨ 48 ≤ c ∧ c ≤ 57 := by
  intro c hc
  rw [← @List.intercalate_splitOn _ peerIp _ _ (46 : UInt8)] at hc
  simp only [dottedQuad, Bool.and_eq_true, List.all_eq_true, decide_eq_true_eq] at h
  rcases mem_intercalate hc with hdot | ⟨part, hpart, hmem⟩
  · exact .inl (List.mem_singleton.mp hdot)
  · exact .inr ((h.2 part hpart).1.1.2 c hmem)

theorem cString_eq_self (h : 0 ∉ peerIp) : cString peerIp = peerIp := by
  rw [cString, List.takeWhile_eq_self_iff]
  intro c hc
  have hne : c ≠ 0 := fun heq => h (heq ▸ hc)
  simpa using hne

/-- The language of the check: the host is compared as a whole, but only its part
in front of a NUL is looked at as an address. -/
theorem isAllowedRtspEndpoint_iff (inetPton : Bytes → Bool)
    (hpton : ∀ text, inetPton text = true ↔ dottedQuad text = true) (url peerIp : Bytes) :
    (isAllowedRtspEndpoint inetPton url peerIp = true ↔
      dottedQuad (cString peerIp) = true ∧ (∀ c ∈ peerIp, isSeparator c = false) ∧
        EndpointUrl url peerIp) ∧
    (0 ∉ peerIp → (isAllowedRtspEndpoint inetPton url peerIp = true ↔
      dottedQuad peerIp = true ∧ EndpointUrl url peerIp)) := by
  have hlanguage : isAllowedRtspEndpoint inetPton url peerIp = true ↔
      dottedQuad (cString peerIp) = true ∧ (∀ c ∈ peerIp, isSeparator c = false) ∧
        EndpointUrl url peerIp := by
    simp only [isAllowedRtspEndpoint_scheme, isAllowedAuthorityAndPath_iff, hpton]
    constructor
    · rintro ⟨scheme, _, hscheme, rfl, hquad, hseparator, identifier, hidentifier, rfl⟩
      exact ⟨hquad, hseparator, scheme, identifier, hscheme, hidentifier,
        by simp only [List.append_assoc]⟩
    · rintro ⟨hquad, hseparator, scheme, identifier, hscheme, hidentifier, rfl⟩
      exact ⟨scheme, peerIp ++ ascii ":8554/live/" ++ identifier, hscheme,
        by simp only [List.append_assoc], hquad, hseparator, identifier, hidentifier, rfl⟩
  refine ⟨hlanguage, fun hnul => ?_⟩
  rw [hlanguage, cString_eq_self hnul]
  refine and_congr_right fun hquad => and_iff_right fun c hc => ?_
  rcases dottedQuad_characters hquad c hc with rfl | ⟨hlow, hhigh⟩
  · decide
  · have hne : ∀ other : UInt8, ¬ (48 ≤ other ∧ other ≤ 57) → c ≠ other := by
      rintro other hother rfl
      exact hother ⟨hlow, hhigh⟩
    simp [isSeparator, hne 47 (by decide), hne 64 (by decide), hne 63 (by decide),
      hne 35 (by decide)]

/-- A peer in front of a NUL is taken with whatever stands behind the NUL. -/
theorem isAllowedRtspEndpoint_nul :
    ¬ ∀ inetPton : Bytes → Bool, (∀ text, inetPton text = true ↔ dottedQuad text = true) →
      ∀ url peerIp : Bytes, isAllowedRtspEndpoint inetPton url peerIp = true ↔
        dottedQuad peerIp = true ∧ EndpointUrl url peerIp := by
  intro h
  have hallowed := (h dottedQuad (fun _ => Iff.rfl)
    (ascii "rtsp://10.0.0.2" ++ [0] ++ ascii ":8554/live/0123456789abcdef0123456789abcdef")
    (ascii "10.0.0.2" ++ [0])).mp (by decide)
  exact absurd hallowed.1 (by decide)

theorem isAllowedRtspEndpoint_iff_sample :
    isAllowedRtspEndpoint dottedQuad
        (ascii "rtsp://10.0.0.2:8554/live/0123456789abcdef0123456789abcdef")
        (ascii "10.0.0.2") = true ↔
      dottedQuad (ascii "10.0.0.2") = true ∧
        EndpointUrl (ascii "rtsp://10.0.0.2:8554/live/0123456789abcdef0123456789abcdef")
          (ascii "10.0.0.2") :=
  (isAllowedRtspEndpoint_iff dottedQuad (fun _ => Iff.rfl) _ _).2 (by decide)

end Language

end OpenCam.Linux
