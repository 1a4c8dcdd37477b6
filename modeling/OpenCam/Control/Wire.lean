import OpenCam.Bytes.Text

/-!
The wire format both peers speak, stated once: a ten-byte header and a payload.
Each implementation builds it in its own way; their headers, nonces and
sequence fields are proved equal to the ones here.
-/

namespace OpenCam.Control

open Octets

structure Frame where
  type : UInt8
  payload : Bytes
deriving DecidableEq, Repr

/-- Magic, version, type and the payload's length in four bytes. -/
def encodeHeader (type : UInt8) (payloadSize : Nat) : Bytes :=
  ascii "OCAM" ++ [2, type] ++ beBytes 4 payloadSize

def encodeFrame (frame : Frame) : Bytes :=
  encodeHeader frame.type frame.payload.length ++ frame.payload

/-- The four bytes that tell the two directions' nonces apart. -/
def noncePrefix (serverSide : Bool) : Bytes :=
  if serverSide then ascii "SRVR" else ascii "CLNT"

def gcmNonce (serverSide : Bool) (sequence : Nat) : Bytes :=
  noncePrefix serverSide ++ beBytes 8 sequence

/-- The payload of an encrypted frame: the sequence number, then ciphertext
and tag. -/
def sealedPayload (sequence : Nat) (encrypted : Bytes) : Bytes :=
  beBytes 8 sequence ++ encrypted

def sessionInfo : Bytes := ascii "OpenCam control v2 session"

/-- The key-derivation label of what one side sends. -/
def directionInfo (serverSide : Bool) : Bytes :=
  if serverSide then ascii "OpenCam control v2 server-to-client"
  else ascii "OpenCam control v2 client-to-server"

@[simp] theorem encodeHeader_length (type : UInt8) (payloadSize : Nat) :
    (encodeHeader type payloadSize).length = 10 := by
  simp [encodeHeader, ascii]

@[simp] theorem encodeFrame_length (frame : Frame) :
    (encodeFrame frame).length = 10 + frame.payload.length := by
  simp [encodeFrame]

@[simp] theorem noncePrefix_length (serverSide : Bool) : (noncePrefix serverSide).length = 4 := by
  cases serverSide <;> rfl

@[simp] theorem gcmNonce_length (serverSide : Bool) (sequence : Nat) :
    (gcmNonce serverSide sequence).length = 12 := by
  simp [gcmNonce]

theorem noncePrefix_inj {left right : Bool} (h : noncePrefix left = noncePrefix right) :
    left = right := by
  cases left <;> cases right <;> first | rfl | (revert h; decide)

/-- A nonce tells the direction and the sequence number. -/
theorem gcmNonce_inj {leftSide rightSide : Bool} {left right : Nat} (hleft : left < 2 ^ 64)
    (hright : right < 2 ^ 64) (h : gcmNonce leftSide left = gcmNonce rightSide right) :
    leftSide = rightSide ∧ left = right := by
  obtain ⟨hstart, hsequence⟩ := List.append_inj h (by simp)
  exact ⟨noncePrefix_inj hstart,
    beBytes_inj (by simpa using hleft) (by simpa using hright) hsequence⟩

/-- A header tells the type of its frame. -/
theorem encodeHeader_type {left right : UInt8} {leftSize rightSize : Nat}
    (h : encodeHeader left leftSize = encodeHeader right rightSize) : left = right := by
  unfold encodeHeader at h
  obtain ⟨hfront, _⟩ := List.append_inj h (by simp [ascii])
  simpa [ascii] using hfront

/-- Where the fields of a header are. -/
theorem encodeHeader_fields (type : UInt8) (payloadSize : Nat) :
    (encodeHeader type payloadSize).take 4 = ascii "OCAM" ∧
      (encodeHeader type payloadSize).getD 4 0 = 2 ∧
      (encodeHeader type payloadSize).getD 5 0 = type ∧
      (encodeHeader type payloadSize).drop 6 = beBytes 4 payloadSize :=
  ⟨rfl, rfl, rfl, rfl⟩

/-- Everything long enough to be an encrypted payload has its three fields. -/
theorem exists_sealed_fields (payload : Bytes) (h : 24 ≤ payload.length) :
    ∃ sequence ciphertext tag : Bytes, sequence.length = 8 ∧ tag.length = 16 ∧
      payload = sequence ++ (ciphertext ++ tag) := by
  refine ⟨payload.take 8, (payload.drop 8).take (payload.length - 24),
    (payload.drop 8).drop (payload.length - 24), ?_, ?_, ?_⟩
  · rw [List.length_take]
    omega
  · rw [List.length_drop, List.length_drop]
    omega
  · rw [List.take_append_drop, List.take_append_drop]

end OpenCam.Control
