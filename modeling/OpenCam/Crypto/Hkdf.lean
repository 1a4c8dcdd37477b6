import OpenCam.Bytes.BigEndian

/-!
The cryptographic functions a protocol is built on, as functions of their
inputs: HMAC-SHA256, AES-256-GCM and, over HMAC, the HKDF of RFC 5869. The
laws in `Primitives` are the ones every implementation of the standards has;
nothing about secrecy is assumed here.
-/

namespace Crypto

open Octets

/-- HMAC-SHA256 and AES-256-GCM with a 16-byte tag. -/
structure Primitives where
  hmac (key data : Bytes) : Block 32
  /-- Ciphertext and tag. The ciphertext is as long as the plaintext. -/
  encrypt (key nonce aad plaintext : Bytes) : Block (plaintext.length + 16)
  decrypt (key nonce aad ciphertext tag : Bytes) : Option Bytes
  decrypt_encrypt : ∀ key nonce aad plaintext,
    decrypt key nonce aad ((encrypt key nonce aad plaintext).val.take plaintext.length)
      ((encrypt key nonce aad plaintext).val.drop plaintext.length) = some plaintext

section Hkdf

variable (hmac : Bytes → Bytes → Block 32)

/-- `PRK = HMAC(salt, IKM)`. -/
def hkdfExtract (salt ikm : Bytes) : Block 32 := hmac salt ikm

/-- `T(0)` is empty and `T(i) = HMAC(PRK, T(i-1) || info || byte(i))`. -/
def hkdfBlock (prk info : Bytes) : Nat → Bytes
  | 0 => []
  | index + 1 =>
      (hmac prk (hkdfBlock prk info index ++ info ++ [UInt8.ofNat (index + 1)])).val

/-- `T(1) || … || T(count)`. -/
def hkdfStream (prk info : Bytes) : Nat → Bytes
  | 0 => []
  | count + 1 => hkdfStream prk info count ++ hkdfBlock hmac prk info (count + 1)

/-- The first `length` bytes of `T(1) || T(2) || …`. -/
def hkdfExpand (prk info : Bytes) (length : Nat) : Bytes :=
  (hkdfStream hmac prk info ((length + 31) / 32)).take length

@[simp] theorem hkdfBlock_length (prk info : Bytes) (index : Nat) :
    (hkdfBlock hmac prk info (index + 1)).length = 32 := by
  rw [hkdfBlock]
  exact (hmac _ _).property

@[simp] theorem hkdfStream_length (prk info : Bytes) (count : Nat) :
    (hkdfStream hmac prk info count).length = 32 * count := by
  induction count with
  | zero => rfl
  | succ count ih =>
      rw [hkdfStream, List.length_append, ih, hkdfBlock_length]
      omega

theorem hkdfExpand_length (prk info : Bytes) (length : Nat) :
    (hkdfExpand hmac prk info length).length = length := by
  rw [hkdfExpand, List.length_take, hkdfStream_length]
  omega

theorem hkdfExpand_eq_take {length count : Nat} (prk info : Bytes) (h : length ≤ 32 * count) :
    (hkdfStream hmac prk info count).take length = hkdfExpand hmac prk info length := by
  induction count with
  | zero =>
      obtain rfl : length = 0 := by omega
      rfl
  | succ count ih =>
      by_cases hshort : length ≤ 32 * count
      · rw [hkdfStream, List.take_append_of_le_length (by simpa using hshort), ih hshort]
      · have hcount : (length + 31) / 32 = count + 1 := by omega
        rw [hkdfExpand, hcount]

/-- Output of one hash length is `T(1)`. -/
theorem hkdfExpand_one_block (prk info : Bytes) :
    hkdfExpand hmac prk info 32 = (hmac prk (info ++ [1])).val := by
  have hone : hkdfExpand hmac prk info 32 = (hkdfBlock hmac prk info 1).take 32 := rfl
  rw [hone, List.take_of_length_le (by simp)]
  rfl

/-- The key of 32 bytes that HKDF-Expand derives. -/
def hkdfKey (prk info : Bytes) : Block 32 :=
  ⟨hkdfExpand hmac prk info 32, hkdfExpand_length hmac prk info 32⟩

end Hkdf

section CounterMode

/-- `bytes` with a keystream added to it. -/
def addStream (stream : Nat → UInt8) (bytes : Bytes) : Bytes :=
  bytes.mapIdx fun index byte => byte ^^^ stream index

@[simp] theorem addStream_length (stream : Nat → UInt8) (bytes : Bytes) :
    (addStream stream bytes).length = bytes.length := List.length_mapIdx

theorem addStream_addStream (stream : Nat → UInt8) (bytes : Bytes) :
    addStream stream (addStream stream bytes) = bytes := by
  apply List.ext_getElem
  · simp
  · intro index hleft hright
    simp only [addStream, List.getElem_mapIdx]
    rw [UInt8.xor_assoc, UInt8.xor_self, UInt8.xor_zero]

/-- AES-256-GCM given by its keystream, for each key and nonce, and its tag,
for each key, nonce, associated data and ciphertext. -/
def Primitives.counterMode (hmac : Bytes → Bytes → Block 32)
    (stream : Bytes → Bytes → Nat → UInt8) (tag : Bytes → Bytes → Bytes → Bytes → Block 16) :
    Primitives where
  hmac := hmac
  encrypt key nonce aad plaintext :=
    ⟨addStream (stream key nonce) plaintext ++
      (tag key nonce aad (addStream (stream key nonce) plaintext)).val, by
        rw [List.length_append, addStream_length, (tag _ _ _ _).property]⟩
  decrypt key nonce aad ciphertext received :=
    if (tag key nonce aad ciphertext).val = received then
      some (addStream (stream key nonce) ciphertext)
    else none
  decrypt_encrypt := by
    intro key nonce aad plaintext
    have htake : (addStream (stream key nonce) plaintext ++
        (tag key nonce aad (addStream (stream key nonce) plaintext)).val).take plaintext.length =
        addStream (stream key nonce) plaintext := List.take_left' (addStream_length _ _)
    have hdrop : (addStream (stream key nonce) plaintext ++
        (tag key nonce aad (addStream (stream key nonce) plaintext)).val).drop plaintext.length =
        (tag key nonce aad (addStream (stream key nonce) plaintext)).val :=
      List.drop_left' (addStream_length _ _)
    rw [htake, hdrop, if_pos rfl, addStream_addStream]

end CounterMode

end Crypto
