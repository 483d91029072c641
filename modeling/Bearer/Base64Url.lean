import Bearer.Bytes
/-!
Unpadded base64url (RFC 4648, section 5) in its strict form: each byte string has one written form,
and what is not the written form of a byte string is refused with the place of the first fault.
-/

namespace Bearer.Base64Url

inductive DecodeError where
  | symbol (offset : Nat) (byte : UInt8)
  | length (count : Nat)
  | lastSymbol (offset : Nat) (byte : UInt8)
  | padding
  deriving DecidableEq, Repr

def DecodeError.message : DecodeError → String
  | .symbol offset byte => s!"Invalid symbol {byte.toNat}, offset {offset}."
  | .length count => s!"Invalid input length: {count}"
  | .lastSymbol offset byte => s!"Invalid last symbol {byte.toNat}, offset {offset}."
  | .padding => "Invalid padding"

/-! ## Encoding -/

def alphabet : List Char :=
  "ABCDEFGHIJKLMNOPQRSTUVWXYZabcdefghijklmnopqrstuvwxyz0123456789-_".toList

def symbol (sextet : Nat) : Char := alphabet.getD sextet 'A'

def encodeChars : Bytes → List Char
  | [] => []
  | [a] => [symbol (a.toNat / 4), symbol (a.toNat % 4 * 16)]
  | [a, b] =>
      [symbol (a.toNat / 4), symbol (a.toNat % 4 * 16 + b.toNat / 16), symbol (b.toNat % 16 * 4)]
  | a :: b :: c :: rest =>
      symbol (a.toNat / 4) :: symbol (a.toNat % 4 * 16 + b.toNat / 16) ::
        symbol (b.toNat % 16 * 4 + c.toNat / 64) :: symbol (c.toNat % 64) :: encodeChars rest

def encode (bytes : Bytes) : String := String.ofList (encodeChars bytes)

/-! ## Decoding -/

def sextet? (byte : UInt8) : Option Nat :=
  if 65 ≤ byte ∧ byte ≤ 90 then some (byte.toNat - 65)
  else if 97 ≤ byte ∧ byte ≤ 122 then some (byte.toNat - 71)
  else if 48 ≤ byte ∧ byte ≤ 57 then some (byte.toNat + 4)
  else if byte = 45 then some 62
  else if byte = 95 then some 63
  else none

def sextet (offset : Nat) (byte : UInt8) : Except DecodeError Nat :=
  match sextet? byte with
  | some value => .ok value
  | none => .error (.symbol offset byte)

def joinThree (a b c d : Nat) : Bytes :=
  [UInt8.ofNat (a * 4 + b / 16), UInt8.ofNat (b % 16 * 16 + c / 4), UInt8.ofNat (c % 4 * 64 + d)]

def decodeQuads (offset : Nat) : Bytes → Except DecodeError Bytes
  | a :: b :: c :: d :: rest => do
      let first ← sextet offset a
      let second ← sextet (offset + 1) b
      let third ← sextet (offset + 2) c
      let fourth ← sextet (offset + 3) d
      return joinThree first second third fourth ++ (← decodeQuads (offset + 4) rest)
  | _ => .ok []

def pad : UInt8 := 61

structure LastQuad where
  values : List Nat
  padAt : Option Nat

/-- Scans the last quad from its place `index` on. Padding is a foreign byte among the first two
places, and so is the first padding when something else follows it. -/
def scanLast (offset : Nat) : Nat → LastQuad → Bytes → Except DecodeError LastQuad
  | _, quad, [] => .ok quad
  | index, quad, byte :: rest =>
      if byte = pad then
        if index < 2 then .error (.symbol (offset + index) byte)
        else scanLast offset (index + 1) { quad with padAt := quad.padAt.or (some index) } rest
      else match quad.padAt with
        | some place => .error (.symbol (offset + place) pad)
        | none => do
            let value ← sextet (offset + index) byte
            scanLast offset (index + 1) { quad with values := quad.values ++ [value] } rest

def spareBits : List Nat → Nat
  | [_, b] => b % 16
  | [_, _, c] => c % 4
  | _ => 0

def joinLast : List Nat → Bytes
  | [a, b] => [UInt8.ofNat (a * 4 + b / 16)]
  | [a, b, c] => [UInt8.ofNat (a * 4 + b / 16), UInt8.ofNat (b % 16 * 16 + c / 4)]
  | [a, b, c, d] => joinThree a b c d
  | _ => []

def decodeLast (offset : Nat) (leftover : Bytes) : Except DecodeError Bytes := do
  let quad ← scanLast offset 0 ⟨[], none⟩ leftover
  if leftover = [] then return []
  else if quad.values.length < 2 then throw (.length (offset + quad.values.length))
  else if quad.padAt.isSome then throw .padding
  else if spareBits quad.values ≠ 0 then
    let last := quad.values.length - 1
    throw (.lastSymbol (offset + last) (leftover.getD last 0))
  else return joinLast quad.values

/-- A byte that stands alone after whole quads is looked at first: a foreign one is reported before
all others, unless it is padding. -/
def checkStray (input : Bytes) : Except DecodeError Unit :=
  match input.getLast? with
  | some byte =>
      if input.length % 4 = 1 ∧ byte ≠ pad ∧ sextet? byte = none then
        .error (.symbol (input.length - 1) byte)
      else .ok ()
  | none => .ok ()

def decode (input : Bytes) : Except DecodeError Bytes := do
  checkStray input
  let whole := (input.length - 1) / 4 * 4
  let front ← decodeQuads 0 (input.take whole)
  return front ++ (← decodeLast whole (input.drop whole))

end Bearer.Base64Url
