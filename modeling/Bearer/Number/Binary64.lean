namespace Bearer

structure Binary64 where
  bits : UInt64
  deriving DecidableEq, Repr

namespace Binary64

def isNegative (x : Binary64) : Bool := x.bits >>> 63 == 1

def exponentField (x : Binary64) : Nat := (x.bits >>> 52).toNat % 2048

def fraction (x : Binary64) : Nat := x.bits.toNat % Nat.pow 2 52

def isFinite (x : Binary64) : Bool := x.exponentField != 2047

def significand (x : Binary64) : Nat :=
  if x.exponentField = 0 then x.fraction else Nat.pow 2 52 + x.fraction

def scale (x : Binary64) : Int := (max x.exponentField 1 : Nat) - 1075

def isZero (x : Binary64) : Bool := x.significand == 0

def zero : Binary64 := ⟨0⟩
def infinity : Binary64 := ⟨0x7ff0000000000000⟩
def notANumber : Binary64 := ⟨0x7ff8000000000000⟩

def negate (x : Binary64) : Binary64 := ⟨x.bits ^^^ 0x8000000000000000⟩

def withSign (negative : Bool) (x : Binary64) : Binary64 := if negative then x.negate else x

def toRatio (x : Binary64) : Nat × Nat :=
  if 0 ≤ x.scale then (x.significand * Nat.pow 2 x.scale.toNat, 1)
  else (x.significand, Nat.pow 2 (-x.scale).toNat)

/-! ## Rounding -/

def roundDiv (numerator denominator : Nat) : Nat :=
  let quotient := numerator / denominator
  let twice := 2 * (numerator % denominator)
  if denominator < twice ∨ (twice = denominator ∧ quotient % 2 = 1) then quotient + 1 else quotient

def roundAt (numerator denominator : Nat) (scale : Int) : Nat :=
  if 0 ≤ scale then roundDiv numerator (denominator * Nat.pow 2 scale.toNat)
  else roundDiv (numerator * Nat.pow 2 (-scale).toNat) denominator

def scaleOf (numerator denominator : Nat) : Int :=
  let guess : Int := (numerator.log2 : Int) - denominator.log2 - 52
  let reaches : Bool :=
    if 0 ≤ guess then denominator * Nat.pow 2 guess.toNat * Nat.pow 2 52 ≤ numerator
    else denominator * Nat.pow 2 52 ≤ numerator * Nat.pow 2 (-guess).toNat
  max (if reaches then guess else guess - 1) (-1074)

def pack? (significand : Nat) (scale : Int) : Option Binary64 :=
  let (significand, scale) :=
    if significand = Nat.pow 2 53 then (Nat.pow 2 52, scale + 1) else (significand, scale)
  if significand < Nat.pow 2 52 then some ⟨UInt64.ofNat significand⟩
  else if 971 < scale then none
  else some ⟨UInt64.ofNat ((scale + 1075).toNat * Nat.pow 2 52 + (significand - Nat.pow 2 52))⟩

def ofRatio? (numerator denominator : Nat) : Option Binary64 :=
  if numerator = 0 then some zero
  else
    let scale := scaleOf numerator denominator
    pack? (roundAt numerator denominator scale) scale

def ofNat? (value : Nat) : Option Binary64 := ofRatio? value 1

def multiply? (x y : Binary64) : Option Binary64 :=
  ofRatio? (x.toRatio.1 * y.toRatio.1) (x.toRatio.2 * y.toRatio.2)

def divide? (x y : Binary64) : Option Binary64 :=
  ofRatio? (x.toRatio.1 * y.toRatio.2) (x.toRatio.2 * y.toRatio.1)

def ofDecimal? (digits : Nat) (exponent : Int) : Option Binary64 :=
  if digits = 0 then some zero
  else if 400 < exponent then none
  else if exponent < -400 - (digits.log2 : Int) then some zero
  else if 0 ≤ exponent then ofRatio? (digits * Nat.pow 10 exponent.toNat) 1
  else ofRatio? digits (Nat.pow 10 (-exponent).toNat)

end Binary64

end Bearer
