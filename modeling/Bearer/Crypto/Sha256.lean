import Bearer.Bytes
/-!
SHA-256 (FIPS 180-4). A message is padded to whole blocks of 64 bytes; each block is read as sixteen
words, and sixty-four rounds mix them into eight registers. A round uses the first word of a sliding
window of sixteen and appends the word that the schedule derives from the window.
-/

namespace Bearer.Sha256

def rotateRight (word : UInt32) (count : UInt32) : UInt32 :=
  (word >>> count) ||| (word <<< (32 - count))

structure Registers where
  a : UInt32
  b : UInt32
  c : UInt32
  d : UInt32
  e : UInt32
  f : UInt32
  g : UInt32
  h : UInt32

def Registers.start : Registers :=
  ⟨0x6a09e667, 0xbb67ae85, 0x3c6ef372, 0xa54ff53a, 0x510e527f, 0x9b05688c, 0x1f83d9ab, 0x5be0cd19⟩

def Registers.add (x y : Registers) : Registers :=
  ⟨x.a + y.a, x.b + y.b, x.c + y.c, x.d + y.d, x.e + y.e, x.f + y.f, x.g + y.g, x.h + y.h⟩

def Registers.words (r : Registers) : List UInt32 := [r.a, r.b, r.c, r.d, r.e, r.f, r.g, r.h]

def roundConstants : List UInt32 := [
  0x428a2f98, 0x71374491, 0xb5c0fbcf, 0xe9b5dba5, 0x3956c25b, 0x59f111f1, 0x923f82a4, 0xab1c5ed5,
  0xd807aa98, 0x12835b01, 0x243185be, 0x550c7dc3, 0x72be5d74, 0x80deb1fe, 0x9bdc06a7, 0xc19bf174,
  0xe49b69c1, 0xefbe4786, 0x0fc19dc6, 0x240ca1cc, 0x2de92c6f, 0x4a7484aa, 0x5cb0a9dc, 0x76f988da,
  0x983e5152, 0xa831c66d, 0xb00327c8, 0xbf597fc7, 0xc6e00bf3, 0xd5a79147, 0x06ca6351, 0x14292967,
  0x27b70a85, 0x2e1b2138, 0x4d2c6dfc, 0x53380d13, 0x650a7354, 0x766a0abb, 0x81c2c92e, 0x92722c85,
  0xa2bfe8a1, 0xa81a664b, 0xc24b8b70, 0xc76c51a3, 0xd192e819, 0xd6990624, 0xf40e3585, 0x106aa070,
  0x19a4c116, 0x1e376c08, 0x2748774c, 0x34b0bcb5, 0x391c0cb3, 0x4ed8aa4a, 0x5b9cca4f, 0x682e6ff3,
  0x748f82ee, 0x78a5636f, 0x84c87814, 0x8cc70208, 0x90befffa, 0xa4506ceb, 0xbef9a3f7, 0xc67178f2]

def slide (window : List UInt32) : List UInt32 :=
  let early := window.getD 1 0
  let late := window.getD 14 0
  let earlyMix := rotateRight early 7 ^^^ rotateRight early 18 ^^^ (early >>> 3)
  let lateMix := rotateRight late 17 ^^^ rotateRight late 19 ^^^ (late >>> 10)
  window.tail ++ [lateMix + window.getD 9 0 + earlyMix + window.headD 0]

def round (r : Registers) (word constant : UInt32) : Registers :=
  let sumE := rotateRight r.e 6 ^^^ rotateRight r.e 11 ^^^ rotateRight r.e 25
  let choice := (r.e &&& r.f) ^^^ (~~~ r.e &&& r.g)
  let first := r.h + sumE + choice + constant + word
  let sumA := rotateRight r.a 2 ^^^ rotateRight r.a 13 ^^^ rotateRight r.a 22
  let majority := (r.a &&& r.b) ^^^ (r.a &&& r.c) ^^^ (r.b &&& r.c)
  ⟨first + (sumA + majority), r.a, r.b, r.c, r.d + first, r.e, r.f, r.g⟩

def rounds : List UInt32 → Registers → List UInt32 → Registers
  | [], r, _ => r
  | constant :: rest, r, window => rounds rest (round r (window.headD 0) constant) (slide window)

def wordsOf (block : Bytes) : List UInt32 :=
  (block.chunks 4).map fun word => UInt32.ofNat (Bytes.toNat word)

def absorb (r : Registers) (block : Bytes) : Registers :=
  r.add (rounds roundConstants r (wordsOf block))

def pad (message : Bytes) : Bytes :=
  message ++ (0x80 :: List.replicate ((119 - message.length % 64) % 64) 0) ++
    Bytes.ofNat 8 (8 * message.length)

def hash (message : Bytes) : Bytes :=
  (((pad message).chunks 64).foldl absorb Registers.start).words.flatMap
    fun word => Bytes.ofNat 4 word.toNat

end Bearer.Sha256
