import Bearer.Number.Binary64
/-!
The shortest decimal that reads back as a given binary64 number; of several, the nearest. A decimal
reads back when it lies between the midpoints to the two neighbours, or on one of them and the
significand is even.
-/

namespace Bearer

structure Decimal where
  digits : Nat
  exponent : Int
  deriving DecidableEq, Repr

namespace Decimal

def trimZeros : Nat → Decimal → Decimal
  | 0, d => d
  | fuel + 1, d =>
      if d.digits ≠ 0 ∧ d.digits % 10 = 0 then trimZeros fuel ⟨d.digits / 10, d.exponent + 1⟩ else d

def digitChars (d : Decimal) : List Char := Nat.toDigits 10 d.digits

def leading (d : Decimal) : Int := d.exponent + d.digitChars.length - 1

end Decimal

namespace Shortest

/-- A finite number and the two midpoints beside it, all over one denominator. -/
structure Span where
  low : Nat
  value : Nat
  high : Nat
  denominator : Nat
  closed : Bool

def Span.of (x : Binary64) : Span :=
  let m := x.significand
  let narrow : Bool := x.fraction == 0 && 1 < x.exponentField
  let low := if narrow then 4 * m - 1 else 4 * m - 2
  let scale := x.scale - 2
  let up := if 0 ≤ scale then Nat.pow 2 scale.toNat else 1
  let down := if 0 ≤ scale then 1 else Nat.pow 2 (-scale).toNat
  ⟨low * up, 4 * m * up, (4 * m + 2) * up, down, m % 2 == 0⟩

def Span.contains (span : Span) (d : Decimal) : Bool :=
  let point := if 0 ≤ d.exponent then d.digits * Nat.pow 10 d.exponent.toNat * span.denominator
    else d.digits * span.denominator
  let unit := if 0 ≤ d.exponent then 1 else Nat.pow 10 (-d.exponent).toNat
  if span.closed then span.low * unit ≤ point && point ≤ span.high * unit
  else span.low * unit < point && point < span.high * unit

def Span.below (span : Span) (exponent : Int) : Nat :=
  if 0 ≤ exponent then span.value / (span.denominator * Nat.pow 10 exponent.toNat)
  else span.value * Nat.pow 10 (-exponent).toNat / span.denominator

def Span.besideMiddle (span : Span) (digits : Nat) (exponent : Int) : Ordering :=
  let middle := (2 * digits + 1) * span.denominator
  if 0 ≤ exponent then compare (2 * span.value) (middle * Nat.pow 10 exponent.toNat)
  else compare (2 * span.value * Nat.pow 10 (-exponent).toNat) middle

/-- The point of a grid that reads back, if one does: of two the nearer, of a tie the even one. -/
def Span.pick? (span : Span) (exponent : Int) : Option Decimal :=
  let digits := span.below exponent
  let lower : Decimal := ⟨digits, exponent⟩
  let upper : Decimal := ⟨digits + 1, exponent⟩
  match span.contains lower, span.contains upper with
  | true, false => some lower
  | false, true => some upper
  | false, false => none
  | true, true =>
      match span.besideMiddle digits exponent with
      | .lt => some lower
      | .gt => some upper
      | .eq => some (if digits % 2 = 0 then lower else upper)

def Span.leading (span : Span) : Int :=
  if span.denominator ≤ span.value then
    (Nat.toDigits 10 (span.value / span.denominator)).length - 1
  else
    let size := (Nat.toDigits 10 (span.denominator / span.value)).length
    if span.denominator ≤ span.value * Nat.pow 10 (size - 1) then 1 - (size : Int)
    else -(size : Int)

def Span.search (span : Span) : Nat → Int → Option Decimal
  | 0, _ => none
  | fuel + 1, exponent => (span.pick? exponent).or (span.search fuel (exponent - 1))

end Shortest

/-- The shortest decimal of the size of a finite number; seventeen digits always suffice. -/
def Binary64.shortest (x : Binary64) : Decimal :=
  if x.isZero then ⟨0, 0⟩
  else
    let span := Shortest.Span.of x
    let last := span.leading - 16
    let found := (span.search 17 span.leading).getD ⟨span.below last, last⟩
    found.trimZeros 20

end Bearer
