import Bearer.Proofs.Outcome
import Bearer.Proofs.Text.Integer
import Bearer.Proofs.Time.Calendar
import Bearer.Proofs.Time.Instant
import Bearer.Time.Rfc3339

namespace Bearer.Instant

open Text (padded digitValue? digitValue?_digit isBlank_digit)

namespace Reader

/-! ## Digits -/

theorem filterMap_digits (digits : List Char) (all : ∀ c ∈ digits, c.isDigit = true) (start : Nat) :
    (digits.filterMap digitValue?).foldl (fun value digit => value * 10 + digit) start =
      Nat.ofDigitChars 10 digits start := by
  induction digits generalizing start with
  | nil => rfl
  | cons c digits ih =>
      rw [List.filterMap_cons_some (digitValue?_digit (all c List.mem_cons_self)), List.foldl_cons,
        ih (fun other member => all other (List.mem_cons_of_mem _ member)), Nat.ofDigitChars_cons,
        Nat.mul_comm start 10]
      rfl

theorem valueOf_digits {digits : List Char} (all : ∀ c ∈ digits, c.isDigit = true) :
    valueOf (digits.filterMap digitValue?) = Nat.ofDigitChars 10 digits 0 :=
  filterMap_digits digits all 0

theorem valueOf_padded (width value : Nat) :
    valueOf ((padded width value).filterMap digitValue?) = value := by
  rw [valueOf_digits fun c => Text.isDigit_of_mem_padded, Text.ofDigitChars_padded]

theorem length_filterMap_digits {digits : List Char} (all : ∀ c ∈ digits, c.isDigit = true) :
    (digits.filterMap digitValue?).length = digits.length := by
  induction digits with
  | nil => rfl
  | cons c digits ih =>
      rw [List.filterMap_cons_some (digitValue?_digit (all c List.mem_cons_self)), List.length_cons,
        ih fun other member => all other (List.mem_cons_of_mem _ member), List.length_cons]

theorem digitsUpTo_read {width : Nat} {digits rest : List Char}
    (all : ∀ c ∈ digits, c.isDigit = true) (filled : digits ≠ []) (fits : digits.length ≤ width)
    (stop : digits.length = width ∨ ∀ c, rest.head? = some c → digitValue? c = none) :
    digitsUpTo width (digits ++ rest) = .ok (digits.filterMap digitValue?, rest) := by
  have allDigits : ∀ c ∈ digits, (digitValue? c).isSome = true := fun c member => by
    rw [digitValue?_digit (all c member)]
    rfl
  have run : ((digits ++ rest).take width).takeWhile (digitValue? · |>.isSome) = digits := by
    rw [List.take_append, List.take_of_length_le fits, List.takeWhile_append_of_pos allDigits]
    rcases stop with exactly | other
    · rw [exactly, Nat.sub_self, List.take_zero, List.takeWhile_nil, List.append_nil]
    · cases rest with
      | nil => simp
      | cons c rest =>
          have none := other c rfl
          cases width - digits.length with
          | zero => simp
          | succ more => simp [none]
  cases digits with
  | nil => exact absurd rfl filled
  | cons c digits =>
      unfold digitsUpTo
      rw [run]
      simp only [List.cons_append, List.isEmpty_cons, Bool.false_eq_true, if_false]
      rw [← List.cons_append, List.drop_left]

/-! ## Numbers and signs -/

theorem skipBlanks_read {c : Char} (solid : Text.isBlank c = false) (rest : List Char) :
    skipBlanks (c :: rest) = .ok ((), c :: rest) := by
  rw [skipBlanks, Text.trimStart, List.dropWhile_cons_of_neg (by simp [solid])]

theorem padded_eq_cons {width value : Nat} (positive : 0 < width) (fits : value < 10 ^ width) :
    ∃ first others, padded width value = first :: others ∧ first.isDigit = true := by
  have length := Text.length_padded positive fits
  cases digits : padded width value with
  | nil =>
      rw [digits] at length
      simp only [List.length_nil] at length
      omega
  | cons first others =>
      exact ⟨first, others, rfl, Text.isDigit_of_mem_padded (digits ▸ List.mem_cons_self)⟩

theorem bounded_read {width value least most : Nat} (positive : 0 < width)
    (fits : value < 10 ^ width) (inside : least ≤ value ∧ value ≤ most) (rest : List Char) :
    bounded width least most (padded width value ++ rest) = .ok (value, rest) := by
  obtain ⟨first, others, digits, digit⟩ := padded_eq_cons positive fits
  have length := Text.length_padded positive fits
  have read : digitsUpTo width (padded width value ++ rest) =
      .ok ((padded width value).filterMap digitValue?, rest) :=
    digitsUpTo_read (fun c => Text.isDigit_of_mem_padded) (by simp [digits])
      (Nat.le_of_eq length) (.inl length)
  have skipped : skipBlanks (padded width value ++ rest) = .ok ((), padded width value ++ rest) := by
    rw [digits]
    exact skipBlanks_read (isBlank_digit digit) _
  rw [bounded, bind_read skipped, bind_read read, valueOf_padded, if_pos inside, pure_read]

theorem literal_read {c : Char} (solid : Text.isBlank c = false) (rest : List Char) :
    literal c (c :: rest) = .ok ((), rest) := by
  rw [literal, bind_read (skipBlanks_read solid rest), get_bind_read]
  simp only [if_true]
  rfl

theorem separator_read (rest : List Char) : separator ('T' :: rest) = .ok ((), rest) := rfl

/-! ## Years -/

theorem year_read_plain {year : Int} (plain : 0 ≤ year ∧ year ≤ 9999) (rest : List Char) :
    Reader.year (padded 4 year.toNat ++ rest) = .ok (year, rest) := by
  have fits : year.toNat < 10 ^ 4 := by omega
  obtain ⟨first, others, digits, digit⟩ := padded_eq_cons (by decide) fits
  have length := Text.length_padded (by decide) fits
  have read : digitsUpTo 4 (padded 4 year.toNat ++ rest) =
      .ok ((padded 4 year.toNat).filterMap digitValue?, rest) :=
    digitsUpTo_read (fun c => Text.isDigit_of_mem_padded) (by simp [digits])
      (Nat.le_of_eq length) (.inl length)
  have skipped : skipBlanks (padded 4 year.toNat ++ rest) =
      .ok ((), padded 4 year.toNat ++ rest) := by
    rw [digits]
    exact skipBlanks_read (isBlank_digit digit) _
  have minus : (padded 4 year.toNat ++ rest).head? ≠ some '-' := by
    rw [digits, List.cons_append, List.head?_cons]
    rintro ⟨⟩
    cases digit
  have plus : (padded 4 year.toNat ++ rest).head? ≠ some '+' := by
    rw [digits, List.cons_append, List.head?_cons]
    rintro ⟨⟩
    cases digit
  have inside : -Nat.pow 2 31 ≤ (year.toNat : Int) ∧ (year.toNat : Int) < Nat.pow 2 31 := by
    have power : Nat.pow 2 31 = 2147483648 := by decide
    rw [power]
    omega
  rw [Reader.year, bind_read skipped, get_bind_read]
  simp only [minus, plus, or_self, if_false]
  rw [bind_read read, valueOf_padded, if_pos inside, Int.toNat_of_nonneg plain.1]
  rfl

theorem padded_ne_nil (width value : Nat) : padded width value ≠ [] := by
  intro empty
  exact Nat.toDigits_ne_nil (List.append_eq_nil_iff.1 empty).2

theorem year_read_signed {sign : Char} (isSign : sign = '-' ∨ sign = '+') {size : Nat} {year : Int}
    (value : year = if sign = '-' then -(size : Int) else size) (small : size < 2147483648)
    (rest : List Char) :
    Reader.year (sign :: (padded 4 size ++ '-' :: rest)) = .ok (year, '-' :: rest) := by
  have solid : Text.isBlank sign = false := by rcases isSign with rfl | rfl <;> decide
  have head : (sign :: (padded 4 size ++ '-' :: rest)).head? = some '-' ∨
      (sign :: (padded 4 size ++ '-' :: rest)).head? = some '+' := by
    rcases isSign with rfl | rfl <;> simp
  have read : digitsUpTo (sign :: (padded 4 size ++ '-' :: rest)).length
      (padded 4 size ++ '-' :: rest) = .ok ((padded 4 size).filterMap digitValue?, '-' :: rest) := by
    refine digitsUpTo_read (fun c => Text.isDigit_of_mem_padded) (padded_ne_nil 4 size) ?_
      (.inr fun c found => ?_)
    · simp only [List.length_cons, List.length_append]
      omega
    · cases found
      decide
  have found : (if (sign :: (padded 4 size ++ '-' :: rest)).head? = some '-' then -(size : Int)
      else size) = year := by
    rw [value]
    rcases isSign with rfl | rfl <;> simp
  have inside : -Nat.pow 2 31 ≤ year ∧ year < Nat.pow 2 31 := by
    have power : Nat.pow 2 31 = 2147483648 := by decide
    rw [power, value]
    split <;> omega
  rw [Reader.year, bind_read (skipBlanks_read solid _), get_bind_read]
  simp only [head, if_true, List.tail_cons]
  rw [set_bind_read, bind_read read, valueOf_padded, found, if_pos inside]
  rfl

theorem year_read {year : Int} (least : -2147483648 < year) (most : year < 2147483648)
    (rest : List Char) : Reader.year (yearChars year ++ '-' :: rest) = .ok (year, '-' :: rest) := by
  unfold yearChars
  split
  · next plain => exact year_read_plain plain _
  · next long =>
      by_cases negative : year < 0
      · rw [if_pos negative]
        exact year_read_signed (.inl rfl) (by rw [if_pos rfl]; omega) (by omega) rest
      · rw [if_neg negative]
        exact year_read_signed (.inr rfl) (by rw [if_neg (by decide)]; omega) (by omega) rest

/-! ## Fractions -/

theorem fraction_read_digits (width value : Nat) (positive : 0 < width) (most : width ≤ 9)
    (fits : value < 10 ^ width) (rest : List Char) :
    fraction ('.' :: (padded width value ++ 'Z' :: rest)) =
      .ok (value * 10 ^ (9 - width), 'Z' :: rest) := by
  have length := Text.length_padded positive fits
  have read : digitsUpTo 9 (padded width value ++ 'Z' :: rest) =
      .ok ((padded width value).filterMap digitValue?, 'Z' :: rest) := by
    refine digitsUpTo_read (fun c => Text.isDigit_of_mem_padded) (padded_ne_nil width value)
      (by omega) (.inr fun c found => ?_)
    cases found
    decide
  have count := length_filterMap_digits fun c => @Text.isDigit_of_mem_padded c width value
  rw [fraction, get_bind_read]
  simp only [set_bind_read]
  rw [bind_read read]
  change Except.ok (valueOf _ * Nat.pow 10 (9 - ((padded width value).filterMap digitValue?).length),
    List.dropWhile _ ('Z' :: rest)) = _
  rw [valueOf_padded, count, length]
  rfl

theorem fraction_read {nanos : Nat} (small : nanos < 1000000000) (rest : List Char) :
    fraction (fractionChars nanos ++ 'Z' :: rest) = .ok (nanos, 'Z' :: rest) := by
  unfold fractionChars
  split_ifs with none millis micros
  · subst none
    rfl
  · have read := fraction_read_digits 3 (nanos / 1000000) (by decide) (by decide)
      (by omega) rest
    rwa [show nanos / 1000000 * 10 ^ (9 - 3) = nanos by omega] at read
  · have read := fraction_read_digits 6 (nanos / 1000) (by decide) (by decide)
      (by omega) rest
    rwa [show nanos / 1000 * 10 ^ (9 - 6) = nanos by omega] at read
  · have read := fraction_read_digits 9 nanos (by decide) (by decide)
      (by omega) rest
    rwa [show nanos * 10 ^ (9 - 9) = nanos by omega] at read

theorem offset_read : offset ['Z'] = .ok (0, []) := rfl

/-! ## All parts -/

theorem two_digits {value : Nat} (fits : value < 100) : value < 10 ^ 2 := fits

theorem parts_read {date : Date} {hour minute second nanos : Nat}
    (year : -2147483648 < date.year ∧ date.year < 2147483648)
    (month : 1 ≤ date.month ∧ date.month ≤ 12) (day : 1 ≤ date.day ∧ date.day ≤ 31)
    (hours : hour ≤ 23) (minutes : minute ≤ 59) (seconds : second ≤ 60)
    (small : nanos < 1000000000) :
    parts (yearChars date.year ++ '-' :: padded 2 date.month ++ '-' :: padded 2 date.day ++
      'T' :: padded 2 hour ++ ':' :: padded 2 minute ++ ':' :: padded 2 second ++
      fractionChars nanos ++ ['Z']) = .ok (⟨date, hour, minute, second, nanos, 0⟩, []) := by
  simp only [List.append_assoc, List.cons_append]
  rw [parts, bind_read (year_read year.1 year.2 _), bind_read (literal_read (by decide) _),
    bind_read (bounded_read (by decide) (two_digits (by omega)) month _),
    bind_read (literal_read (by decide) _),
    bind_read (bounded_read (by decide) (two_digits (by omega)) day _),
    bind_read (separator_read _),
    bind_read (bounded_read (by decide) (two_digits (by omega)) ⟨Nat.zero_le _, hours⟩ _),
    bind_read (literal_read (by decide) _),
    bind_read (bounded_read (by decide) (two_digits (by omega)) ⟨Nat.zero_le _, minutes⟩ _),
    bind_read (literal_read (by decide) _),
    bind_read (bounded_read (by decide) (two_digits (by omega)) ⟨Nat.zero_le _, seconds⟩ _),
    bind_read (fraction_read small _), bind_read offset_read]
  rfl

end Reader

/-! ## Instants -/

def partsOf (t : Instant) : Reader.Parts :=
  let second := (t.second % 86400).toNat
  ⟨Date.ofDays (t.second / 86400), second / 3600, second / 60 % 60,
    second % 60 + t.nanos / 1000000000, t.nanos % 1000000000, 0⟩

theorem leap_cases (t : Instant) :
    t.nanos / 1000000000 = 0 ∨ (t.nanos / 1000000000 = 1 ∧ (t.second % 86400).toNat % 60 = 59) := by
  have inside := t.nanos_lt
  omega

theorem local?_partsOf (t : Instant) : t.partsOf.local? = some t := by
  have valid : t.partsOf.date.isValid = true := Date.isValid_ofDays _
  have days : t.partsOf.date.toDays = t.second / 86400 := Date.toDays_ofDays _
  unfold Reader.Parts.local?
  simp only [valid, if_true, days]
  rw [← mk?_eq t]
  have leap := leap_cases t
  congr 1
  · simp only [partsOf]
    omega
  · simp only [partsOf]
    omega

theorem year_bounds (days : Int) (least : -100000000000 ≤ days) (most : days ≤ 100000000000) :
    -2147483648 < (Date.ofDays days).year ∧ (Date.ofDays days).year < 2147483648 := by
  obtain ⟨round, day, inside, total, date⟩ := Date.ofDays_eq days
  have small := (Date.yearOf_bounds inside).1
  rw [date]
  simp only [Date.daysOfRound, Date.firstDay] at inside total ⊢
  split <;> omega

theorem read_rfc3339 (t : Instant) : read t.rfc3339 = .ok t := by
  have least := t.le_second
  have most := t.second_le
  have leap := leap_cases t
  have valid := Date.isValid_ofDays (t.second / 86400)
  have parts : Reader.parts t.rfc3339.toList = .ok (t.partsOf, []) := by
    rw [rfc3339, String.toList_ofList]
    simp only [Date.isValid, Bool.and_eq_true, decide_eq_true_eq] at valid
    obtain ⟨⟨⟨month_ge, month_le⟩, day_ge⟩, day_le⟩ := valid
    refine Reader.parts_read (year_bounds _ (by omega) (by omega)) ⟨month_ge, month_le⟩
      ⟨day_ge, Nat.le_trans day_le ?_⟩ (by omega) (by omega) (by omega) (by omega)
    unfold Date.daysInMonth
    split_ifs <;> decide
  have fits : mk? (t.second - t.partsOf.offset) t.nanos = some t := by
    rw [show t.second - t.partsOf.offset = t.second from Int.sub_zero _, mk?_eq]
  rw [read, parts, ok_bind]
  simp only [ofParts, local?_partsOf, fits]
  rfl

end Bearer.Instant
