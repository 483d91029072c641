import Bearer.Text.Blank
import Bearer.Text.Digits
import Bearer.Text.Integer
import Bearer.Time.Instant
/-!
Dates and times as texts (RFC 3339). Written are years of four digits, or longer ones with a sign,
and as many digits of a second as it takes, in groups of three. Read is a wider language, with
blanks between the parts and offsets from UTC.
-/

namespace Bearer.Instant

open Text (padded)

/-! ## Writing -/

def yearChars (year : Int) : List Char :=
  if 0 ≤ year ∧ year ≤ 9999 then padded 4 year.toNat
  else (if year < 0 then '-' else '+') :: padded 4 year.natAbs

def fractionChars (nanos : Nat) : List Char :=
  if nanos = 0 then []
  else if nanos % 1000000 = 0 then '.' :: padded 3 (nanos / 1000000)
  else if nanos % 1000 = 0 then '.' :: padded 6 (nanos / 1000)
  else '.' :: padded 9 nanos

def dateTimeChars (t : Instant) : List Char :=
  let date := Date.ofDays (t.second / 86400)
  let second := (t.second % 86400).toNat
  let leap := t.nanos / 1000000000
  yearChars date.year ++ '-' :: padded 2 date.month ++ '-' :: padded 2 date.day ++
    'T' :: padded 2 (second / 3600) ++ ':' :: padded 2 (second / 60 % 60) ++
    ':' :: padded 2 (second % 60 + leap) ++ fractionChars (t.nanos % 1000000000)

def rfc3339 (t : Instant) : String := String.ofList (t.dateTimeChars ++ ['Z'])

def rfc3339Offset (t : Instant) : String := String.ofList (t.dateTimeChars ++ "+00:00".toList)

/-! ## Reading -/

inductive ReadError where
  | outOfRange
  | impossible
  | invalid
  | tooShort
  | tooLong
  deriving DecidableEq, Repr

def ReadError.message : ReadError → String
  | .outOfRange => "input is out of range"
  | .impossible => "no possible date and time matching input"
  | .invalid => "input contains invalid characters"
  | .tooShort => "premature end of input"
  | .tooLong => "trailing input"

abbrev Reader := StateT (List Char) (Except ReadError)

namespace Reader

def skipBlanks : Reader Unit := fun rest => .ok ((), Text.trimStart rest)

def digitsUpTo (width : Nat) : Reader (List Nat) := fun rest =>
  let run := (rest.take width).takeWhile (Text.digitValue? · |>.isSome)
  match rest with
  | [] => .error .tooShort
  | _ =>
      if run.isEmpty then .error .invalid
      else .ok (run.filterMap Text.digitValue?, rest.drop run.length)

def valueOf (digits : List Nat) : Nat := digits.foldl (fun value digit => value * 10 + digit) 0

def bounded (width least most : Nat) : Reader Nat := do
  skipBlanks
  let value := valueOf (← digitsUpTo width)
  if least ≤ value ∧ value ≤ most then return value else throw .outOfRange

def year : Reader Int := do
  skipBlanks
  let rest ← get
  let signed := rest.head? = some '-' ∨ rest.head? = some '+'
  if signed then set rest.tail
  let digits ← digitsUpTo (if signed then rest.length else 4)
  let size : Int := valueOf digits
  let value := if rest.head? = some '-' then -size else size
  if -Nat.pow 2 31 ≤ value ∧ value < Nat.pow 2 31 then return value else throw .outOfRange

def literal (c : Char) : Reader Unit := do
  skipBlanks
  match ← get with
  | [] => throw .tooShort
  | other :: rest => if other = c then set rest else throw .invalid

def separator : Reader Unit := do
  match ← get with
  | [] => throw .tooShort
  | c :: rest => if c = 't' ∨ c = 'T' ∨ c = ' ' then set rest else throw .invalid

def fraction : Reader Nat := do
  match ← get with
  | '.' :: rest => do
      set rest
      let digits ← digitsUpTo 9
      modify (·.dropWhile (Text.digitValue? · |>.isSome))
      return valueOf digits * Nat.pow 10 (9 - digits.length)
  | _ => return 0

def twoDigits (bound : Nat) : Reader Nat := do
  match ← get with
  | [] => throw .tooShort
  | [c] => if c.toNat < 128 then throw .tooShort else throw .invalid
  | a :: b :: rest =>
      match Text.digitValue? a, Text.digitValue? b with
      | some high, some low =>
          if high < bound then do
            set rest
            return high * 10 + low
          else throw .outOfRange
      | _, _ => throw .invalid

def sign : Reader Int := do
  match ← get with
  | [] => throw .tooShort
  | c :: rest =>
      set rest
      if c = '+' then return 1
      else if c = '-' ∨ c = Char.ofNat 0x2212 then return -1
      else throw .invalid

def offset : Reader Int := do
  skipBlanks
  let rest ← get
  if (rest.take 3).map Char.toUpper = ['U', 'T', 'C'] then
    set (rest.drop 3)
    return 0
  else if rest.head? = some 'Z' ∨ rest.head? = some 'z' then
    set rest.tail
    return 0
  else
    let sign ← sign
    let hours ← twoDigits 10
    modify (·.dropWhile fun c => c == ':' || Text.isBlank c)
    let minutes ← twoDigits 6
    return sign * (hours * 3600 + minutes * 60)

structure Parts where
  date : Date
  hour : Nat
  minute : Nat
  second : Nat
  nanos : Nat
  offset : Int

def parts : Reader Parts := do
  let year ← year
  literal '-'
  let month ← bounded 2 1 12
  literal '-'
  let day ← bounded 2 1 31
  separator
  let hour ← bounded 2 0 23
  literal ':'
  let minute ← bounded 2 0 59
  literal ':'
  let second ← bounded 2 0 60
  let nanos ← fraction
  let offset ← offset
  skipBlanks
  if (← get).isEmpty then return ⟨⟨year, month, day⟩, hour, minute, second, nanos, offset⟩
  else throw .tooLong

end Reader

def Reader.Parts.local? (parts : Reader.Parts) : Option Instant :=
  let leap := parts.second / 60
  let second := parts.date.toDays * 86400 + parts.hour * 3600 + parts.minute * 60 +
    (parts.second - leap)
  if parts.date.isValid then mk? second (parts.nanos + leap * 1000000000) else none

def ofParts (parts : Reader.Parts) : Except ReadError Instant :=
  match parts.local? with
  | none => .error .outOfRange
  | some t =>
      if 86400 ≤ parts.offset.natAbs then .error .outOfRange
      else match mk? (t.second - parts.offset) t.nanos with
        | none => .error .impossible
        | some found => .ok found

def read (text : String) : Except ReadError Instant := do
  let (parts, _) ← Reader.parts text.toList
  ofParts parts

end Bearer.Instant
