import Bearer.Time.Instant
import Mathlib.Tactic.SplitIfs

namespace Bearer.Instant

/-! ## The order -/

theorem le_trans {s t u : Instant} (first : s ≤ t) (second : t ≤ u) : s ≤ u := by
  simp only [le_def, lt_def] at *
  omega

theorem le_refl (t : Instant) : t ≤ t := by
  simp only [le_def, lt_def]
  omega

theorem le_antisymm {s t : Instant} (first : s ≤ t) (second : t ≤ s) : s = t := by
  cases s
  cases t
  simp only [le_def, lt_def] at first second
  simp only [mk.injEq]
  omega

theorem le_of_lt {s t : Instant} (before : s < t) : s ≤ t := by
  simp only [le_def, lt_def] at *
  omega

theorem lt_of_le_of_ne {s t : Instant} (weak : s ≤ t) (apart : s ≠ t) : s < t :=
  Decidable.by_contra fun late => apart (le_antisymm weak late)

theorem lt_of_le_of_lt {s t u : Instant} (first : s ≤ t) (second : t < u) : s < u := by
  simp only [le_def, lt_def] at *
  omega

theorem lt_irrefl (t : Instant) : ¬t < t := by
  simp only [lt_def]
  omega

theorem second_le_of_le {s t : Instant} (le : s ≤ t) : s.second ≤ t.second := by
  rw [le_def, lt_def] at le
  omega

/-! ## Addition -/

def lastSecond : Int := 8210266876799

/-- The nanoseconds since 1970 on a scale on which a leap second repeats the second before it. -/
def posixNanos (t : Instant) : Int :=
  if t.nanos < 1000000000 then t.toNanos else t.toNanos - Span.nanosPerSecond

theorem posixNanos_div (t : Instant) : t.posixNanos / Span.nanosPerSecond = t.second := by
  have bound := t.nanos_lt
  unfold posixNanos toNanos Span.nanosPerSecond
  split <;> omega

theorem mk?_eq_some_iff {second : Int} {nanos : Nat} {t : Instant} :
    mk? second nanos = some t ↔ t.second = second ∧ t.nanos = nanos := by
  unfold mk?
  constructor
  · intro made
    split_ifs at made with inside
    obtain rfl := Option.some.inj made
    exact ⟨rfl, rfl⟩
  · rintro ⟨rfl, rfl⟩
    rw [dif_pos ⟨⟨t.le_second, t.second_le⟩, t.nanos_lt⟩]

theorem mk?_eq (t : Instant) : mk? t.second t.nanos = some t := mk?_eq_some_iff.2 ⟨rfl, rfl⟩

theorem mk?_eq_none_iff {second : Int} {nanos : Nat} :
    mk? second nanos = none ↔ ¬((-8334601228800 ≤ second ∧ second ≤ lastSecond) ∧
      (nanos < 1000000000 ∨ (nanos < 2000000000 ∧ second % 60 = 59))) := by
  simp [mk?, lastSecond]

theorem ofNanos?_eq_some_iff {count : Int} {t : Instant} :
    ofNanos? count = some t ↔ t.second = count / Span.nanosPerSecond ∧
      t.nanos = (count % Span.nanosPerSecond).toNat :=
  mk?_eq_some_iff

theorem ofNanos?_eq_none_iff {count : Int} :
    ofNanos? count = none ↔ count / Span.nanosPerSecond < -8334601228800 ∨
      lastSecond < count / Span.nanosPerSecond := by
  have digits : (count % Span.nanosPerSecond).toNat < 1000000000 := by
    unfold Span.nanosPerSecond
    omega
  rw [ofNanos?, mk?_eq_none_iff]
  omega

theorem add?_of_nonneg {t : Instant} {span : Span} (forward : 0 ≤ span.nanos) :
    t.add? span = if 1000000000 ≤ t.nanos ∧ t.nanos + span.nanos < 2000000000 then
      mk? t.second (t.nanos + span.nanos).toNat else ofNanos? (t.posixNanos + span.nanos) := by
  simp only [add?, posixNanos]
  by_cases leap : t.nanos < 1000000000
  · have notLeap : ¬1000000000 ≤ t.nanos := Nat.not_le.2 leap
    simp only [leap, notLeap, true_or, false_and, if_true, if_false]
  · have further : ¬t.nanos + span.nanos < 1000000000 := by omega
    simp only [leap, further, Nat.not_lt.1 leap, or_self, true_and, if_false]

theorem add?_eq_some {t sum : Instant} {span : Span} (forward : 0 ≤ span.nanos)
    (added : t.add? span = some sum) :
    sum.second = (t.posixNanos + span.nanos) / Span.nanosPerSecond ∧
      (sum.second = t.second → sum.nanos = t.nanos + span.nanos) := by
  have bound := t.nanos_lt
  rw [add?_of_nonneg forward] at added
  split_ifs at added with within
  · -- The sum stays in the leap second, and so in the same second of the scale.
    obtain ⟨second, nanos⟩ := mk?_eq_some_iff.1 added
    unfold posixNanos toNanos Span.nanosPerSecond
    rw [if_neg (by omega)]
    omega
  · obtain ⟨second, nanos⟩ := ofNanos?_eq_some_iff.1 added
    refine ⟨second, ?_⟩
    unfold posixNanos toNanos Span.nanosPerSecond at *
    split_ifs at * <;> omega

theorem second_of_add? {t sum : Instant} {span : Span} (forward : 0 ≤ span.nanos)
    (added : t.add? span = some sum) :
    sum.second = (t.posixNanos + span.nanos) / Span.nanosPerSecond :=
  (add?_eq_some forward added).1

theorem second_le_of_add? {t sum : Instant} {span : Span} (forward : 0 ≤ span.nanos)
    (added : t.add? span = some sum) : t.second ≤ sum.second := by
  rw [second_of_add? forward added, ← posixNanos_div t]
  exact Int.ediv_le_ediv (by decide) (by omega)

theorem le_of_add? {t sum : Instant} {span : Span} (forward : 0 ≤ span.nanos)
    (added : t.add? span = some sum) : t ≤ sum := by
  have second := second_le_of_add? forward added
  have nanos := (add?_eq_some forward added).2
  rw [le_def, lt_def]
  omega

theorem lt_of_add? {t sum : Instant} {span : Span} (forward : 0 < span.nanos)
    (added : t.add? span = some sum) : t < sum := by
  have second := second_le_of_add? (Int.le_of_lt forward) added
  have nanos := (add?_eq_some (Int.le_of_lt forward) added).2
  rw [lt_def]
  omega

theorem add?_eq_none_iff {t : Instant} {span : Span} (forward : 0 ≤ span.nanos) :
    t.add? span = none ↔ lastSecond < (t.posixNanos + span.nanos) / Span.nanosPerSecond := by
  have back := posixNanos_div t
  have least := t.le_second
  have notBack : t.posixNanos / Span.nanosPerSecond ≤
      (t.posixNanos + span.nanos) / Span.nanosPerSecond :=
    Int.ediv_le_ediv (by decide) (by omega)
  rw [add?_of_nonneg forward]
  split_ifs with within
  · -- Within a leap second the sum is always there, and its second stays the same.
    have bound := t.nanos_lt
    have second := t.second_le
    have stays : (t.posixNanos + span.nanos) / Span.nanosPerSecond = t.second := by
      unfold posixNanos toNanos Span.nanosPerSecond
      rw [if_neg (by omega)]
      omega
    rw [mk?_eq_none_iff, stays]
    unfold lastSecond
    omega
  · rw [ofNanos?_eq_none_iff]
    omega

end Bearer.Instant
