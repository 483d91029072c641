import Bearer.Json.Reader
import Bearer.Text.Hex

namespace Bearer.Json.Reader

def simpleEscape? (byte : UInt8) : Option UInt8 :=
  if byte = 34 ∨ byte = 92 ∨ byte = 47 then some byte
  else if byte = 98 then some 8
  else if byte = 102 then some 12
  else if byte = 110 then some 10
  else if byte = 114 then some 13
  else if byte = 116 then some 9
  else none

def hexValue? (byte : UInt8) : Option Nat := Hex.value? (Char.ofNat byte.toNat)

def hexQuad : Reader Nat
  | a :: b :: c :: d :: rest =>
      match [a, b, c, d].mapM hexValue? with
      | some values => .ok (values.foldl (fun number value => number * 16 + value) 0, rest)
      | none => fail .invalidEscape rest
  | _ => fail .endOfString []

def pairWith (byte : UInt8) : Reader Unit := do
  match ← next? with
  | none => fail .endOfString
  | some other => if other = byte then pure () else fail .halfSurrogatePair

def isHighSurrogate (number : Nat) : Bool := 0xd800 ≤ number && number ≤ 0xdbff
def isLowSurrogate (number : Nat) : Bool := 0xdc00 ≤ number && number ≤ 0xdfff

def codePoint : Reader Nat := do
  let number ← hexQuad
  if isLowSurrogate number then fail .loneSurrogate
  else if isHighSurrogate number then do
    pairWith 92
    pairWith 117
    let low ← hexQuad
    if isLowSurrogate low then return (number - 0xd800) * 1024 + (low - 0xdc00) + 0x10000
    else fail .loneSurrogate
  else return number

def escape : Reader Bytes := do
  match ← next? with
  | none => fail .endOfString
  | some byte =>
      match simpleEscape? byte with
      | some plain => return [plain]
      | none =>
          if byte = 117 then return String.utf8EncodeChar (Char.ofNat (← codePoint))
          else fail .invalidEscape

def contents : Nat → Reader Bytes
  | 0 => fail .endOfString
  | rounds + 1 => do
      match ← next? with
      | none => fail .endOfString
      | some byte =>
          if byte = quote then return []
          else if byte = 92 then
            let written ← escape
            return written ++ (← contents rounds)
          else if byte < 32 then fail .controlCharacter
          else return byte :: (← contents rounds)

/-- The string whose opening quote has been read. For bytes out of form the place of the fault is
as far in front of the closing quote as the first of these is from the end of the contents, in which
an escape has been replaced by what it means. -/
def quotedText : Reader String := do
  let bytes ← contents (← rounds)
  match Utf8.decode? bytes with
  | some text => return text
  | none => fun rest =>
      .error ⟨.invalidUtf8, rest.length + (bytes.length - Utf8.validLength bytes)⟩

/-! ## Members of an object -/

def name : Reader String := do
  skipOne
  quotedText

variable {σ : Type}

def foldMembers (member : σ → String → Reader σ) : Nat → Bool → σ → Reader σ
  | 0, _, _ => fail .endOfObject
  | rounds + 1, first, before => do
      if ← moreMembers first then
        foldMembers member rounds false (← member before (← name))
      else return before

end Bearer.Json.Reader
