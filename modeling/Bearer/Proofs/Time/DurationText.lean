import Bearer.Proofs.Time.Duration

namespace Bearer.Duration

def Written (text : String) (count : Nat) (unit : TimeUnit) : Prop :=
  ∃ left number suffix right, text.toList = left ++ (number ++ suffix) ++ right ∧
    Text.Blank left ∧ Text.Blank right ∧ Text.NaturalText count number ∧ UnitText unit suffix

/-! ## Numbers and units -/

theorem isDigit_or_plus {count : Nat} {number : List Char} (numeral : Text.NaturalText count number)
    {c : Char} (member : c ∈ number) : c.isDigit = true ∨ c = '+' := by
  cases numeral with
  | plain numeral => exact .inl (numeral.all c member)
  | plus numeral =>
      rcases List.mem_cons.1 member with isPlus | digit
      · exact .inr isPlus
      · exact .inl (numeral.all c digit)

theorem solid_number {count : Nat} {number : List Char}
    (numeral : Text.NaturalText count number) : Text.Solid number := by
  intro c member
  rcases isDigit_or_plus numeral member with digit | rfl
  · exact Text.isBlank_digit digit
  · decide

theorem solid_unit {unit : TimeUnit} {suffix : List Char} (isUnit : UnitText unit suffix) :
    Text.Solid suffix := by
  cases isUnit <;> exact List.all_iff_forall_prop.1 rfl

theorem notMem_unitLetters {count : Nat} {number : List Char}
    (numeral : Text.NaturalText count number) : ∀ c ∈ number, c ∉ unitLetters := by
  intro c member
  rcases isDigit_or_plus numeral member with digit | rfl
  · exact notMem_unitLetters_digit digit
  · decide

theorem limit_pos : 0 < limit := Nat.pow_pos (by decide)

theorem counts_iff {text : String} {count : Nat} {unit : TimeUnit} :
    Counts text count unit ↔ Written text count unit ∧ count < limit := by
  constructor
  · rintro ⟨number, isSplit, read⟩
    obtain ⟨numeral, fits⟩ := (Text.natural_eq_ok_iff limit_pos).1 read
    obtain ⟨suffix, isUnit, trimmed⟩ := unitText_of_splitUnit isSplit
    obtain ⟨left, right, blank, blank', whole⟩ := Text.exists_trim text.toList
    rw [trimmed] at whole
    exact ⟨⟨left, number, suffix, right, whole, blank, blank', numeral, isUnit⟩, fits⟩
  · rintro ⟨⟨left, number, suffix, right, whole, blank, blank', numeral, isUnit⟩, fits⟩
    have solid := (solid_number numeral).append (solid_unit isUnit)
    refine ⟨number, ?_, (Text.natural_eq_ok_iff limit_pos).2 ⟨numeral, fits⟩⟩
    rw [whole, Text.trim_between blank solid blank',
      splitUnit_append isUnit (notMem_unitLetters numeral)]

/-! ## Sizes -/

def TimeUnit.inNanos : TimeUnit → Nat
  | .milliseconds => 1000000
  | .seconds => 1000000000
  | .minutes => 60000000000
  | .hours => 3600000000000

structure Lasts (duration : Duration) (count : Nat) (unit : TimeUnit) : Prop where
  proper : duration.nanos < 1000000000
  size : duration.toNanos = count * unit.inNanos

theorem lasts_ofCount (count : Nat) (unit : TimeUnit) : Lasts (ofCount count unit) count unit := by
  cases unit <;> constructor <;>
    simp only [ofCount, ofMillis, toNanos, Span.nanosPerSecond, TimeUnit.inNanos,
      TimeUnit.inSeconds, reduceCtorEq, if_true, if_false] <;> omega

theorem Lasts.unique {duration other : Duration} {count : Nat} {unit : TimeUnit}
    (lasts : Lasts duration count unit) (lasts' : Lasts other count unit) : duration = other := by
  have same := lasts.size.trans lasts'.size.symm
  have proper := lasts.proper
  have proper' := lasts'.proper
  obtain ⟨seconds, nanos⟩ := duration
  obtain ⟨seconds', nanos'⟩ := other
  simp only [toNanos, Span.nanosPerSecond] at same proper proper'
  rw [Duration.mk.injEq]
  omega

structure Fits (count : Nat) (unit : TimeUnit) : Prop where
  number : count < 2 ^ 64
  minutes : unit = .minutes → count * 60 < 2 ^ 64
  hours : unit = .hours → count * 3600 < 2 ^ 64

theorem fits_iff {count : Nat} {unit : TimeUnit} :
    Fits count unit ↔ count < limit ∧ count * unit.inSeconds < limit := by
  have same : limit = 2 ^ 64 := rfl
  rw [same]
  constructor
  · rintro ⟨number, minutes, hours⟩
    cases unit with
    | milliseconds => exact ⟨number, by rw [TimeUnit.inSeconds, Nat.mul_zero]; decide⟩
    | seconds => exact ⟨number, by rwa [TimeUnit.inSeconds, Nat.mul_one]⟩
    | minutes => exact ⟨number, minutes rfl⟩
    | hours => exact ⟨number, hours rfl⟩
  · rintro ⟨number, seconds⟩
    refine ⟨number, ?_, ?_⟩
    · rintro rfl
      exact seconds
    · rintro rfl
      exact seconds

/-! ## Which texts are read -/

theorem parse_eq_ok_iff_written {text : String} {duration : Duration} :
    parse text = .ok duration ↔
      ∃ count unit, Written text count unit ∧ Fits count unit ∧ Lasts duration count unit := by
  rw [parse_eq_ok_iff]
  constructor
  · rintro ⟨count, unit, counts, fits, rfl⟩
    obtain ⟨written, small⟩ := counts_iff.1 counts
    exact ⟨count, unit, written, fits_iff.2 ⟨small, fits⟩, lasts_ofCount count unit⟩
  · rintro ⟨count, unit, written, fits, lasts⟩
    obtain ⟨small, seconds⟩ := fits_iff.1 fits
    exact ⟨count, unit, counts_iff.2 ⟨written, small⟩, seconds,
      lasts.unique (lasts_ofCount count unit)⟩

/-- A length of time is read from a text exactly when the text is a number with a unit, white space
around them apart, and neither the number nor the number of seconds outgrows 64 bits. It is as long as
the text says. All other texts are refused. -/
theorem parse_exact (text : String) :
    (∀ duration, parse text = .ok duration ↔
      ∃ count unit, Written text count unit ∧ Fits count unit ∧ Lasts duration count unit) ∧
    ((∃ fault, parse text = .error fault) ↔
      ¬∃ count unit, Written text count unit ∧ Fits count unit) := by
  refine ⟨fun duration => parse_eq_ok_iff_written, ?_⟩
  constructor
  · rintro ⟨fault, refused⟩ ⟨count, unit, written, fits⟩
    have read := parse_eq_ok_iff_written.2 ⟨count, unit, written, fits, lasts_ofCount count unit⟩
    cases refused.symm.trans read
  · intro unwritten
    cases read : parse text with
    | error fault => exact ⟨fault, rfl⟩
    | ok duration =>
        obtain ⟨count, unit, written, fits, -⟩ := parse_eq_ok_iff_written.1 read
        exact absurd ⟨count, unit, written, fits⟩ unwritten

end Bearer.Duration
