import Bearer.Text.Blank
import Bearer.Text.Integer
import Bearer.Time.Instant

namespace Bearer

structure Duration where
  seconds : Nat
  nanos : Nat
  deriving DecidableEq, Repr

inductive DurationError where
  | malformed (text : String) (fault : Text.IntegerError)
  | tooLarge (text : String)
  deriving DecidableEq, Repr

def DurationError.message : DurationError → String
  | .malformed text fault => s!"{text}: {fault.message}"
  | .tooLarge text => s!"{text}: duration too large"

namespace Duration

inductive TimeUnit where
  | milliseconds
  | seconds
  | minutes
  | hours
  deriving DecidableEq, Repr

def TimeUnit.inSeconds : TimeUnit → Nat
  | .milliseconds => 0
  | .seconds => 1
  | .minutes => 60
  | .hours => 3600

def splitUnit (chars : List Char) : List Char × TimeUnit :=
  match chars.reverse with
  | 's' :: 'm' :: rest => (rest.reverse, .milliseconds)
  | 's' :: rest => (rest.reverse, .seconds)
  | 'm' :: rest => (rest.reverse, .minutes)
  | 'h' :: rest => (rest.reverse, .hours)
  | _ => (chars, .seconds)

def limit : Nat := Nat.pow 2 64

def ofMillis (count : Nat) : Duration := ⟨count / 1000, count % 1000 * 1000000⟩

def parse (text : String) : Except DurationError Duration :=
  let trimmed := Text.trim text.toList
  let (digits, unit) := splitUnit trimmed
  match Text.natural limit digits with
  | .error fault => .error (.malformed (String.ofList trimmed) fault)
  | .ok count =>
      if unit = .milliseconds then .ok (ofMillis count)
      else if count * unit.inSeconds < limit then .ok ⟨count * unit.inSeconds, 0⟩
      else .error (.tooLarge (String.ofList trimmed))

def text (duration : Duration) : String := s!"{duration.seconds}s"

def toNanos (duration : Duration) : Int := duration.seconds * Span.nanosPerSecond + duration.nanos

def toSpan? (duration : Duration) : Option Span :=
  if duration.toNanos ≤ (Nat.pow 2 63 - 1) * 1000000 then some ⟨duration.toNanos⟩ else none

end Duration

end Bearer
