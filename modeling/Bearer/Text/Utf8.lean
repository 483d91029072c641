import Bearer.Bytes

namespace Bearer.Utf8

def encodeChars (chars : List Char) : Bytes := chars.flatMap String.utf8EncodeChar

def encode (text : String) : Bytes := encodeChars text.toList

def scalar? (least number : Nat) : Option Char :=
  if least ≤ number ∧ number.isValidChar then some (Char.ofNat number) else none

def tail? (byte : UInt8) : Option Nat :=
  if 0x80 ≤ byte ∧ byte < 0xc0 then some (byte.toNat - 0x80) else none

def twoByteChar? (a b : UInt8) : Option Char := do
  scalar? 0x80 ((a.toNat - 0xc0) * 64 + (← tail? b))

def threeByteChar? (a b c : UInt8) : Option Char := do
  scalar? 0x800 (((a.toNat - 0xe0) * 64 + (← tail? b)) * 64 + (← tail? c))

def fourByteChar? (a b c d : UInt8) : Option Char := do
  scalar? 0x10000 ((((a.toNat - 0xf0) * 64 + (← tail? b)) * 64 + (← tail? c)) * 64 + (← tail? d))

def decodeChars : Bytes → Option (List Char)
  | [] => some []
  | a :: rest =>
    if a < 0x80 then (decodeChars rest).map (Char.ofNat a.toNat :: ·)
    else match rest with
    | [] => none
    | b :: rest =>
      if a < 0xc0 then none
      else if a < 0xe0 then do return (← twoByteChar? a b) :: (← decodeChars rest)
      else match rest with
      | [] => none
      | c :: rest =>
        if a < 0xf0 then do return (← threeByteChar? a b c) :: (← decodeChars rest)
        else match rest with
        | [] => none
        | d :: rest =>
          if a < 0xf8 then do return (← fourByteChar? a b c d) :: (← decodeChars rest) else none

def headLength? (bytes : Bytes) : Option Nat :=
  [1, 2, 3, 4].find? fun count => count ≤ bytes.length && (decodeChars (bytes.take count)).isSome

def validLengthUpTo : Nat → Bytes → Nat
  | 0, _ => 0
  | count + 1, bytes =>
      match headLength? bytes with
      | some length => length + validLengthUpTo count (bytes.drop length)
      | none => 0

def validLength (bytes : Bytes) : Nat := validLengthUpTo bytes.length bytes

def decode? (bytes : Bytes) : Option String := (decodeChars bytes).map String.ofList

end Bearer.Utf8
