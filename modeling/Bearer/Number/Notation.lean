import Bearer.Number.Binary64
import Bearer.Text.Integer

namespace Bearer.Binary64

def isDigit (c : Char) : Bool := (Text.digitValue? c).isSome

def digitsValue (digits : List Char) : Nat :=
  digits.foldl (fun value c => value * 10 + (Text.digitValue? c).getD 0) 0

def splitSign : List Char → Bool × List Char
  | '+' :: rest => (false, rest)
  | '-' :: rest => (true, rest)
  | rest => (false, rest)

def readPower? : List Char → Option Int
  | [] => some 0
  | c :: rest =>
      let (isNegative, digits) := splitSign rest
      if (c = 'e' ∨ c = 'E') ∧ digits ≠ [] ∧ digits.all isDigit then
        let size : Int := digitsValue digits
        some (if isNegative then -size else size)
      else none

def splitFraction : List Char → List Char × List Char
  | '.' :: rest => rest.span isDigit
  | rest => ([], rest)

def ofText? (chars : List Char) : Option Binary64 := do
  let (isNegative, unsigned) := splitSign chars
  let (whole, rest) := unsigned.span isDigit
  let (fraction, rest) := splitFraction rest
  guard (whole ≠ [] ∨ fraction ≠ [])
  let power ← readPower? rest
  let size := (ofDecimal? (digitsValue (whole ++ fraction)) (power - fraction.length)).getD infinity
  return size.withSign isNegative

end Bearer.Binary64
