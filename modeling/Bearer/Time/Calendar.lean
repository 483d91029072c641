namespace Bearer

structure Date where
  year : Int
  month : Nat
  day : Nat
  deriving DecidableEq, Repr

namespace Date

def daysOfRound : Nat := 146097

def daysBeforeYear (year : Nat) : Nat := 365 * year + year / 4 - year / 100

def daysBeforeMonth (month : Nat) : Nat := (153 * month + 2) / 5

def firstDay : Int := -719468

def yearOf (day : Nat) : Nat := (day - day / 1460 + day / 36524 - day / 146096) / 365

def monthOf (day : Nat) : Nat := (5 * day + 2) / 153

def ofDays (days : Int) : Date :=
  let round := (days - firstDay) / daysOfRound
  let dayOfRound := ((days - firstDay) % daysOfRound).toNat
  let year := yearOf dayOfRound
  let dayOfYear := dayOfRound - daysBeforeYear year
  let month := monthOf dayOfYear
  { year := 400 * round + year + if month < 10 then 0 else 1
    month := if month < 10 then month + 3 else month - 9
    day := dayOfYear - daysBeforeMonth month + 1 }

def toDays (date : Date) : Int :=
  let year := if date.month < 3 then date.year - 1 else date.year
  let month := if date.month < 3 then date.month + 9 else date.month - 3
  daysOfRound * (year / 400) + daysBeforeYear (year % 400).toNat + daysBeforeMonth month +
    date.day - 1 + firstDay

def isLeap (year : Int) : Bool := year % 4 == 0 && (year % 100 != 0 || year % 400 == 0)

def daysInMonth (year : Int) (month : Nat) : Nat :=
  if month = 2 then (if isLeap year then 29 else 28)
  else if month = 4 ∨ month = 6 ∨ month = 9 ∨ month = 11 then 30
  else 31

def isValid (date : Date) : Bool :=
  1 ≤ date.month && date.month ≤ 12 && 1 ≤ date.day && date.day ≤ daysInMonth date.year date.month

end Date

end Bearer
