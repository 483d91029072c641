namespace Bearer.Text

inductive IntegerError where
  | empty
  | invalidDigit
  | tooLarge
  | tooSmall
  deriving DecidableEq, Repr

def IntegerError.message : IntegerError → String
  | .empty => "cannot parse integer from empty string"
  | .invalidDigit => "invalid digit found in string"
  | .tooLarge => "number too large to fit in target type"
  | .tooSmall => "number too small to fit in target type"

def digitValue? (c : Char) : Option Nat :=
  if '0' ≤ c ∧ c ≤ '9' then some (c.toNat - 48) else none

def digits (bound : Nat) (beyond : IntegerError) : Nat → List Char → Except IntegerError Nat
  | value, [] => .ok value
  | value, c :: rest =>
      match digitValue? c with
      | none => .error .invalidDigit
      | some digit =>
          if value * 10 + digit < bound then digits bound beyond (value * 10 + digit) rest
          else .error beyond

def number (bound : Nat) (beyond : IntegerError) : List Char → Except IntegerError Nat
  | [] => .error .invalidDigit
  | chars => digits bound beyond 0 chars

def natural (bound : Nat) : List Char → Except IntegerError Nat
  | [] => .error .empty
  | '+' :: rest => number bound .tooLarge rest
  | chars => number bound .tooLarge chars

def integer (bound : Nat) : List Char → Except IntegerError Int
  | [] => .error .empty
  | '+' :: rest => (number bound .tooLarge rest).map Int.ofNat
  | '-' :: rest => (number (bound + 1) .tooSmall rest).map fun value => -(value : Int)
  | chars => (number bound .tooLarge chars).map Int.ofNat

end Bearer.Text
