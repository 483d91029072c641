import Bearer.Crypto.Sha256
/-!
HMAC over SHA-256 (RFC 2104). Keys of any length are admitted: a key longer than a block is hashed
first, a shorter one is padded with zeros.
-/

namespace Bearer.Hmac

def blockKey (key : Bytes) : Bytes :=
  Bytes.padTo 64 (if 64 < key.length then Sha256.hash key else key)

def sign (data key : Bytes) : Bytes :=
  let inner := (blockKey key).map (· ^^^ 0x36)
  let outer := (blockKey key).map (· ^^^ 0x5c)
  Sha256.hash (outer ++ Sha256.hash (inner ++ data))

def verify (data signature key : Bytes) : Bool := sign data key == signature

theorem verify_eq_true_iff (data signature key : Bytes) :
    verify data signature key = true ↔ signature = sign data key := by
  rw [verify, beq_iff_eq, eq_comm]

end Bearer.Hmac
