import Bearer.Crypto.Gcm

namespace Bearer

inductive CryptoError where
  | invalidKeyLength
  | truncated
  | aead
  | random (reason : String)
  deriving DecidableEq, Repr

def CryptoError.message : CryptoError → String
  | .invalidKeyLength => "invalid key length"
  | .truncated => "ciphertext shorter than nonce"
  | .aead => "AEAD operation failed"
  | .random reason => s!"randomness source failed: {reason}"

def keyLength : Nat := 32

/-- What the random source gives, or its reason for giving nothing. -/
abbrev Drawn (α : Type) := Except String α

/-- A fresh nonce. Whoever seals has to bring one; reuse under one key would break the seal. -/
structure Nonce where
  bytes : Bytes
  length_eq : bytes.length = Gcm.nonceLength

def Nonce.ofBytes? (bytes : Bytes) : Option Nonce :=
  if length : bytes.length = Gcm.nonceLength then some ⟨bytes, length⟩ else none

/-- `nonce ‖ ciphertext ‖ tag`. The nonce is drawn once the key has been found to fit. -/
def sealText (plaintext key : Bytes) (draw : Drawn Nonce) : Except CryptoError Bytes :=
  if key.length ≠ keyLength then .error .invalidKeyLength
  else match draw with
    | .error reason => .error (.random reason)
    | .ok nonce =>
        match Gcm.encrypt key nonce.bytes plaintext with
        | none => .error .aead
        | some sealed => .ok (nonce.bytes ++ sealed)

/-- A text that is too short for a nonce is reported whatever the key is; then comes the key. -/
def openSealed (sealed key : Bytes) : Except CryptoError Bytes :=
  if sealed.length < Gcm.nonceLength then .error .truncated
  else if key.length ≠ keyLength then .error .invalidKeyLength
  else match Gcm.decrypt key (sealed.take Gcm.nonceLength) (sealed.drop Gcm.nonceLength) with
    | none => .error .aead
    | some plaintext => .ok plaintext

end Bearer
