import Bearer.Proofs.Outcome
import Bearer.Proofs.Text.Blank
import Bearer.Proofs.Text.Digits
import Bearer.Text.Integer

namespace Bearer.Text

/-! ## Digits -/

theorem digitValue?_digit {c : Char} (digit : c.isDigit = true) :
    digitValue? c = some (c.toNat - 48) := by
  simp only [Char.isDigit, Bool.and_eq_true, decide_eq_true_eq] at digit
  exact if_pos digit

theorem isBlank_digit {c : Char} (digit : c.isDigit = true) : isBlank c = false := by
  obtain ⟨least, most⟩ := toNat_of_isDigit digit
  have solid : ∀ number < 58, 48 ≤ number → blanks.contains number = false := by decide
  exact solid c.toNat (by omega) least

/-! ## Numbers -/

variable {bound value : Nat}

theorem digits_read {beyond : IntegerError} {chars : List Char}
    (all : ∀ c ∈ chars, c.isDigit = true) {start : Nat}
    (fits : Nat.ofDigitChars 10 chars start < bound) :
    digits bound beyond start chars = .ok (Nat.ofDigitChars 10 chars start) := by
  induction chars generalizing start with
  | nil => rfl
  | cons c chars ih =>
      rw [Nat.ofDigitChars_cons, Nat.mul_comm] at fits ⊢
      have short : start * 10 + (c.toNat - 48) < bound :=
        Nat.lt_of_le_of_lt (le_ofDigitChars chars _) fits
      simp only [digits, digitValue?_digit (all c List.mem_cons_self), short, if_true]
      exact ih (fun other member => all other (List.mem_cons_of_mem _ member)) fits

theorem natural_unsigned {c : Char} (unsigned : c ≠ '+') (chars : List Char) :
    natural bound (c :: chars) = digits bound .tooLarge 0 (c :: chars) := by
  unfold natural
  split
  · contradiction
  · rename_i same
    exact absurd (List.cons.inj same).1 unsigned
  · rfl

theorem natural_toDigits (fits : value < bound) :
    natural bound (Nat.toDigits 10 value) = .ok value := by
  have all : ∀ c ∈ Nat.toDigits 10 value, c.isDigit = true := fun c => isDigit_of_mem_toDigits
  have back : Nat.ofDigitChars 10 (Nat.toDigits 10 value) 0 = value := Nat.ofDigitChars_ten_toDigits
  cases made : Nat.toDigits 10 value with
  | nil => exact absurd made Nat.toDigits_ne_nil
  | cons c chars =>
      rw [made] at all back
      have unsigned : c ≠ '+' := by
        rintro rfl
        exact absurd (all _ List.mem_cons_self) (by decide)
      rw [natural_unsigned unsigned, digits_read all (by rwa [back]), back]

theorem lt_of_digits {beyond : IntegerError} {chars : List Char} {start : Nat}
    (below : start < bound) (read : digits bound beyond start chars = .ok value) :
    value < bound := by
  induction chars generalizing start with
  | nil =>
      cases read
      exact below
  | cons c chars ih =>
      unfold digits at read
      cases digit : digitValue? c with
      | none => simp [digit] at read
      | some found =>
          simp only [digit] at read
          split_ifs at read with further
          exact ih further read

theorem lt_of_natural (positive : 0 < bound) {chars : List Char}
    (read : natural bound chars = .ok value) : value < bound := by
  have below {chars : List Char} (read : number bound .tooLarge chars = .ok value) :
      value < bound := by
    cases chars with
    | nil => cases read
    | cons c chars => exact lt_of_digits positive read
  unfold natural at read
  split at read
  · cases read
  · exact below read
  · exact below read

/-! ## The texts of numbers -/

structure Numeral (digits : List Char) (value : Nat) : Prop where
  filled : digits ≠ []
  all : ∀ c ∈ digits, c.isDigit = true
  size : Nat.ofDigitChars 10 digits 0 = value

inductive NaturalText (value : Nat) : List Char → Prop where
  | plain {digits : List Char} (numeral : Numeral digits value) : NaturalText value digits
  | plus {digits : List Char} (numeral : Numeral digits value) : NaturalText value ('+' :: digits)

inductive IntegerText : Int → List Char → Prop where
  | natural {chars : List Char} {value : Nat} (written : NaturalText value chars) :
      IntegerText value chars
  | negative {digits : List Char} {value : Nat} (numeral : Numeral digits value) :
      IntegerText (-value) ('-' :: digits)

theorem isDigit_of_digitValue? {c : Char} {digit : Nat} (isValue : digitValue? c = some digit) :
    c.isDigit = true := by
  unfold digitValue? at isValue
  split at isValue
  · next inside =>
      simp only [Char.isDigit, Bool.and_eq_true, decide_eq_true_eq]
      exact inside
  · cases isValue

theorem all_of_digits {beyond : IntegerError} {chars : List Char} {start : Nat}
    (read : digits bound beyond start chars = .ok value) : ∀ c ∈ chars, c.isDigit = true := by
  induction chars generalizing start with
  | nil => exact List.forall_mem_nil _
  | cons c chars ih =>
      unfold digits at read
      cases isValue : digitValue? c with
      | none => simp [isValue] at read
      | some found =>
          simp only [isValue] at read
          split_ifs at read
          exact List.forall_mem_cons.2 ⟨isDigit_of_digitValue? isValue, ih read⟩

theorem ofDigitChars_of_digits {beyond : IntegerError} {chars : List Char} {start : Nat}
    (read : digits bound beyond start chars = .ok value) :
    Nat.ofDigitChars 10 chars start = value := by
  have all := all_of_digits read
  induction chars generalizing start with
  | nil =>
      cases read
      rfl
  | cons c chars ih =>
      obtain ⟨digit, all⟩ := List.forall_mem_cons.1 all
      unfold digits at read
      rw [digitValue?_digit digit] at read
      dsimp only at read
      split_ifs at read
      rw [Nat.ofDigitChars_cons, Nat.mul_comm]
      exact ih read all

theorem number_eq_ok_iff (positive : 0 < bound) {beyond : IntegerError} {chars : List Char} :
    number bound beyond chars = .ok value ↔ Numeral chars value ∧ value < bound := by
  cases chars with
  | nil => exact ⟨nofun, fun ⟨numeral, _⟩ => absurd rfl numeral.filled⟩
  | cons c chars =>
      constructor
      · intro read
        exact ⟨⟨List.cons_ne_nil _ _, all_of_digits read, ofDigitChars_of_digits read⟩,
          lt_of_digits positive read⟩
      · rintro ⟨⟨-, all, rfl⟩, fits⟩
        exact digits_read all fits

theorem natural_eq_ok_iff (positive : 0 < bound) {chars : List Char} :
    natural bound chars = .ok value ↔ NaturalText value chars ∧ value < bound := by
  constructor
  · intro read
    unfold natural at read
    split at read
    · cases read
    · obtain ⟨numeral, fits⟩ := (number_eq_ok_iff positive).1 read
      exact ⟨.plus numeral, fits⟩
    · obtain ⟨numeral, fits⟩ := (number_eq_ok_iff positive).1 read
      exact ⟨.plain numeral, fits⟩
  · rintro ⟨numeral | numeral, fits⟩
    · have read : number bound .tooLarge chars = .ok value :=
        (number_eq_ok_iff positive).2 ⟨numeral, fits⟩
      obtain ⟨filled, all, -⟩ := numeral
      cases chars with
      | nil => contradiction
      | cons c chars =>
          have unsigned : c ≠ '+' := by
            rintro rfl
            exact absurd (all _ List.mem_cons_self) (by decide)
          rw [natural_unsigned unsigned]
          exact read
    · exact (number_eq_ok_iff positive).2 ⟨numeral, fits⟩

theorem NaturalText.exists_cons {number : List Char} (written : NaturalText value number) :
    ∃ c rest, number = c :: rest := by
  cases written with
  | plain numeral => exact List.exists_cons_of_ne_nil numeral.filled
  | plus numeral => exact ⟨_, _, rfl⟩

theorem NaturalText.unsigned {rest : List Char} : ¬NaturalText value ('-' :: rest)
  | .plain numeral => absurd (numeral.all _ List.mem_cons_self) (by decide)

theorem integer_eq_natural {chars : List Char} (unsigned : ∀ rest, chars ≠ '-' :: rest) :
    integer bound chars = (natural bound chars).map Int.ofNat := by
  unfold integer
  split
  · rfl
  · rfl
  · exact absurd rfl (unsigned _)
  · next noPlus _ =>
      unfold natural
      split
      · contradiction
      · exact absurd rfl (noPlus _)
      · rfl

theorem integer_negative (rest : List Char) : integer bound ('-' :: rest) =
    (number (bound + 1) .tooSmall rest).map fun size : Nat => -(size : Int) := by
  change (do return ((← number (bound + 1) .tooSmall rest : Nat) : Int)).map Int.neg = _
  cases number (bound + 1) .tooSmall rest <;> rfl

theorem integer_eq_ok_iff (positive : 0 < bound) {chars : List Char} {value : Int} :
    integer bound chars = .ok value ↔ IntegerText value chars ∧ -bound ≤ value ∧ value < bound := by
  by_cases signed : ∃ rest, chars = '-' :: rest
  · obtain ⟨rest, rfl⟩ := signed
    rw [integer_negative, map_eq_ok]
    constructor
    · rintro ⟨size, read, rfl⟩
      obtain ⟨numeral, fits⟩ := (number_eq_ok_iff (Nat.succ_pos bound)).1 read
      exact ⟨.negative numeral, by omega, by omega⟩
    · rintro ⟨written, least, -⟩
      cases written with
      | natural written => exact absurd written NaturalText.unsigned
      | negative numeral =>
          exact ⟨_, (number_eq_ok_iff (Nat.succ_pos bound)).2 ⟨numeral, by omega⟩, rfl⟩
  · rw [integer_eq_natural (not_exists.1 signed), map_eq_ok]
    constructor
    · rintro ⟨size, read, rfl⟩
      obtain ⟨written, fits⟩ := (natural_eq_ok_iff positive).1 read
      exact ⟨.natural written, by simp only [Int.ofNat_eq_natCast]; omega, Int.ofNat_lt.2 fits⟩
    · rintro ⟨written, -, most⟩
      cases written with
      | natural written =>
          exact ⟨_, (natural_eq_ok_iff positive).2 ⟨written, Int.ofNat_lt.1 most⟩, rfl⟩
      | negative numeral => exact absurd ⟨_, rfl⟩ signed

end Bearer.Text
