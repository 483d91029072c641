import Bearer.Bytes

namespace Bearer.Hex

def digit (value : Nat) : Char := "0123456789abcdef".toList.getD value '0'

def value? (c : Char) : Option Nat :=
  if '0' ≤ c ∧ c ≤ '9' then some (c.toNat - 48)
  else if 'a' ≤ c ∧ c ≤ 'f' then some (c.toNat - 87)
  else if 'A' ≤ c ∧ c ≤ 'F' then some (c.toNat - 55)
  else none

def encodeByte (byte : UInt8) : List Char := [digit (byte.toNat / 16), digit (byte.toNat % 16)]

def encode (bytes : Bytes) : String := String.ofList (bytes.flatMap encodeByte)

def decodeChars : List Char → Option Bytes
  | [] => some []
  | [_] => none
  | high :: low :: rest => do
      return UInt8.ofNat ((← value? high) * 16 + (← value? low)) :: (← decodeChars rest)

def decode? (text : String) : Option Bytes := decodeChars text.toList

def ofNat (value : Nat) : List Char := Nat.toDigits 16 value

end Bearer.Hex
