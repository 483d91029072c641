import Bearer.Crypto.Aes256
/-!
AES-256 in Galois/counter mode (NIST SP 800-38D) without associated data and with a nonce of twelve
bytes. A sealed text is the plaintext added to the key stream of the counter blocks from 2 on,
followed by a tag of sixteen bytes; block 1 masks the tag. Main statements: the key stream added
twice leaves a text as it was (`applyStream_applyStream`), and sealing keeps the length but for the
tag (`length_encrypt`).
-/

namespace Bearer.Gcm
open Aes256

def nonceLength : Nat := 12
def tagLength : Nat := 16

def maxTextLength : Nat := Nat.pow 2 36

/-! ## The key stream -/

def counterBlock (nonce : Bytes) (counter : Nat) : Block :=
  blockOf (nonce ++ Bytes.ofNat 4 counter)

def keyStream (keys : List Block) (nonce : Bytes) : Nat → Nat → Bytes
  | 0, _ => []
  | count + 1, counter =>
      (encryptBlock keys (counterBlock nonce counter)).toList ++
        keyStream keys nonce count (counter + 1)

def applyStream (keys : List Block) (nonce text : Bytes) : Bytes :=
  Bytes.xor text (keyStream keys nonce ((text.length + 15) / 16) 2)

/-! ## The authentication tag -/

/-- Multiplies in the field of 2 ^ 128 elements; the first bit of a block is the constant term. -/
def multiply (x y : BitVec 128) : BitVec 128 :=
  ((List.range 128).foldl
    (fun (product, factor) bit =>
      (if x.getMsbD bit then product ^^^ factor else product,
        if factor.getLsbD 0 then (factor >>> 1) ^^^ (0xe1#128 <<< 120) else factor >>> 1))
    (0#128, y)).1

def hashBlocks (key : BitVec 128) (blocks : List Bytes) : BitVec 128 :=
  blocks.foldl (fun sum block => multiply (sum ^^^ BitVec.ofNat 128 (Bytes.toNat block)) key) 0

def tagBlocks (ciphertext : Bytes) : List Bytes :=
  (ciphertext.chunks 16).map (Bytes.padTo 16) ++
    [Bytes.ofNat 8 0 ++ Bytes.ofNat 8 (8 * ciphertext.length)]

def tag (keys : List Block) (nonce ciphertext : Bytes) : Bytes :=
  let hashKey := BitVec.ofNat 128 (Bytes.toNat (encryptBlock keys (blockOf [])).toList)
  Bytes.xor (Bytes.ofNat 16 (hashBlocks hashKey (tagBlocks ciphertext)).toNat)
    (encryptBlock keys (counterBlock nonce 1)).toList

/-! ## Sealing -/

def encrypt (key nonce plaintext : Bytes) : Option Bytes :=
  if maxTextLength < plaintext.length then none
  else
    let keys := roundKeys key
    let ciphertext := applyStream keys nonce plaintext
    some (ciphertext ++ tag keys nonce ciphertext)

def decrypt (key nonce sealed : Bytes) : Option Bytes :=
  if sealed.length < tagLength then none
  else
    let ciphertext := sealed.take (sealed.length - tagLength)
    let given := sealed.drop (sealed.length - tagLength)
    if maxTextLength < ciphertext.length then none
    else
      let keys := roundKeys key
      if tag keys nonce ciphertext == given then some (applyStream keys nonce ciphertext) else none

theorem length_keyStream (keys : List Block) (nonce : Bytes) (count counter : Nat) :
    (keyStream keys nonce count counter).length = 16 * count := by
  induction count generalizing counter with
  | zero => rfl
  | succ count ih =>
      simp only [keyStream, List.length_append, Vector.length_toList, ih]
      omega

@[simp] theorem length_applyStream (keys : List Block) (nonce text : Bytes) :
    (applyStream keys nonce text).length = text.length := by
  simp only [applyStream, Bytes.length_xor, length_keyStream]
  omega

theorem applyStream_applyStream (keys : List Block) (nonce text : Bytes) :
    applyStream keys nonce (applyStream keys nonce text) = text := by
  rw [applyStream, length_applyStream, applyStream]
  apply Bytes.xor_xor
  rw [length_keyStream]
  omega

@[simp] theorem length_tag (keys : List Block) (nonce ciphertext : Bytes) :
    (tag keys nonce ciphertext).length = tagLength := by
  simp [tag, tagLength]

theorem length_encrypt {key nonce plaintext sealed : Bytes}
    (done : encrypt key nonce plaintext = some sealed) :
    sealed.length = plaintext.length + tagLength := by
  simp only [encrypt] at done
  split at done
  · simp at done
  · rw [← Option.some.inj done]
    simp

end Bearer.Gcm
