import Bearer.Time.Calendar

namespace Bearer

structure Span where
  nanos : Int
  deriving DecidableEq, Repr

namespace Span

def nanosPerSecond : Int := 1000000000

def seconds (count : Int) : Span := ⟨count * nanosPerSecond⟩

def days (count : Int) : Span := seconds (86400 * count)

end Span

/-- The second counts from the start of 1970. A leap second belongs to the second before it, whose
nanoseconds then go on to two seconds. -/
structure Instant where
  second : Int
  nanos : Nat
  le_second : -8334601228800 ≤ second
  second_le : second ≤ 8210266876799
  nanos_lt : nanos < 1000000000 ∨ (nanos < 2000000000 ∧ second % 60 = 59)
  deriving DecidableEq

namespace Instant

def mk? (second : Int) (nanos : Nat) : Option Instant :=
  if inside : (-8334601228800 ≤ second ∧ second ≤ 8210266876799) ∧
      (nanos < 1000000000 ∨ (nanos < 2000000000 ∧ second % 60 = 59)) then
    some ⟨second, nanos, inside.1.1, inside.1.2, inside.2⟩
  else none

def ofNanos? (count : Int) : Option Instant :=
  mk? (count / Span.nanosPerSecond) (count % Span.nanosPerSecond).toNat

def toNanos (t : Instant) : Int := t.second * Span.nanosPerSecond + t.nanos

/-- Nothing when the calendar ends before. A span that starts in a leap second may end there; one that
leads out of it into the next minute counts it as part of the last. -/
def add? (t : Instant) (span : Span) : Option Instant :=
  let place := t.nanos + span.nanos
  if t.nanos < 1000000000 ∨ place < 1000000000 then ofNanos? (t.toNanos + span.nanos)
  else if place < 2000000000 then mk? t.second place.toNat
  else ofNanos? (t.toNanos - Span.nanosPerSecond + span.nanos)

def epoch : Instant := ⟨0, 0, by decide, by decide, by decide⟩

instance : LT Instant where
  lt s t := s.second < t.second ∨ (s.second = t.second ∧ s.nanos < t.nanos)

instance : LE Instant where
  le s t := ¬t < s

instance (s t : Instant) : Decidable (s < t) :=
  inferInstanceAs (Decidable (s.second < t.second ∨ (s.second = t.second ∧ s.nanos < t.nanos)))

instance (s t : Instant) : Decidable (s ≤ t) := inferInstanceAs (Decidable (¬t < s))

theorem lt_def (s t : Instant) :
    s < t ↔ s.second < t.second ∨ (s.second = t.second ∧ s.nanos < t.nanos) := Iff.rfl

theorem le_def (s t : Instant) : s ≤ t ↔ ¬t < s := Iff.rfl

end Instant

end Bearer
