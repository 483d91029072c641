import Bearer.Json.Reader

namespace Bearer.Json.Reader

def isDigit (byte : UInt8) : Bool := 48 ≤ byte && byte ≤ 57

def digitOf (byte : UInt8) : Nat := byte.toNat - 48

def digitRun : Reader Bytes := fun rest => .ok (rest.takeWhile isDigit, rest.dropWhile isDigit)

def absorb : Nat → Bytes → Nat × Bytes
  | significand, [] => (significand, [])
  | significand, digit :: digits =>
      let longer := significand * 10 + digitOf digit
      if longer < Nat.pow 2 64 then absorb longer digits else (significand, digit :: digits)

/-! ## Scaling -/

def maxPower : Nat := 308

def powerOfTen (exponent : Nat) : Binary64 :=
  (Binary64.ofDecimal? 1 exponent).getD Binary64.infinity

def scaled? : Nat → Binary64 → Int → Option Binary64
  | steps, value, exponent =>
      if exponent.natAbs ≤ maxPower then
        if 0 ≤ exponent then value.multiply? (powerOfTen exponent.natAbs)
        else value.divide? (powerOfTen exponent.natAbs)
      else if value.isZero then some value
      else if 0 ≤ exponent then none
      else match steps with
        | 0 => some Binary64.zero
        | steps + 1 => do
            scaled? steps (← value.divide? (powerOfTen maxPower)) (exponent + maxPower)

def floating (negative : Bool) (significand : Nat) (exponent : Int) : Reader Number := do
  match (Binary64.ofNat? significand).bind (scaled? 4 · exponent) with
  | some value => return .float (value.withSign negative)
  | none => fail .numberOutOfRange

/-! ## Parts of a number -/

def exponentSize : Nat → Bytes → Except Nat Nat
  | size, [] => .ok size
  | size, digit :: digits =>
      let longer := size * 10 + digitOf digit
      if longer < Nat.pow 2 31 then exponentSize longer digits else .error digits.length

def exponentPart (negative : Bool) (significand : Nat) (start : Int) : Reader Number := do
  skipOne
  let sign ← peek
  if sign = some 43 ∨ sign = some 45 then skipOne
  match ← peek with
  | none => fail .endOfValue
  | some byte =>
      if !isDigit byte then do
        skipOne
        fail .invalidNumber
      else
        match exponentSize 0 (← digitRun) with
        | .ok size =>
            floating negative significand (if sign = some 45 then start - size else start + size)
        | .error left =>
            if significand ≠ 0 ∧ sign ≠ some 45 then
              fun rest => .error ⟨.numberOutOfRange, rest.length + left⟩
            else return .float (Binary64.zero.withSign negative)

def isExponentMark (byte : Option UInt8) : Bool := byte == some 101 || byte == some 69

def fractionPart (negative : Bool) (significand : Nat) (start : Int) : Reader Number := do
  skipOne
  let digits ← digitRun
  if digits.isEmpty then
    match ← peek with
    | some _ => failAhead .invalidNumber
    | none => failAhead .endOfValue
  else
    let (significand, rest) := absorb significand digits
    let exponent := start - (digits.length - rest.length : Nat)
    if isExponentMark (← peek) then exponentPart negative significand exponent
    else floating negative significand exponent

def wholeNumber (negative : Bool) (size : Nat) : Reader Number :=
  if !negative then return .int size
  else if size ≠ 0 ∧ size ≤ Nat.pow 2 63 then return .int (-size)
  else floating true size 0

def unsigned (negative : Bool) (digits : Bytes) : Reader Number := do
  let (significand, rest) := absorb 0 digits
  let after ← peek
  if after = some 46 then fractionPart negative significand rest.length
  else if isExponentMark after then exponentPart negative significand rest.length
  else if rest.isEmpty then wholeNumber negative significand
  else floating negative significand rest.length

def digitsAndMore (negative : Bool) : Reader Number := do
  match ← next? with
  | none => fail .endOfValue
  | some byte =>
      if byte = 48 then
        match ← peek with
        | some digit =>
            if isDigit digit then failAhead .invalidNumber else unsigned negative [byte]
        | none => unsigned negative [byte]
      else if isDigit byte then
        unsigned negative (byte :: (← digitRun))
      else fail .invalidNumber

def number : Reader Number := do
  if (← peek) = some 45 then do
    skipOne
    digitsAndMore true
  else digitsAndMore false

def startsNumber (byte : UInt8) : Bool := byte == 45 || isDigit byte

end Bearer.Json.Reader
