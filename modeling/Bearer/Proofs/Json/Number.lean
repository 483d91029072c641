import Bearer.Json.Reader.Number
import Bearer.Proofs.Json.Reader
import Bearer.Proofs.Text.Digits

namespace Bearer.Json.Reader

def Ends (rest : Bytes) : Prop :=
  ∀ byte, rest.head? = some byte → isDigit byte = false ∧ byte ≠ 46 ∧ byte ≠ 101 ∧ byte ≠ 69

theorem ends_nil : Ends [] := fun _ head => by cases head

theorem ends_cons {byte : UInt8} {rest : Bytes}
    (ends : isDigit byte = false ∧ byte ≠ 46 ∧ byte ≠ 101 ∧ byte ≠ 69) : Ends (byte :: rest) := by
  intro other head
  cases head
  exact ends

theorem Ends.head_ne {rest : Bytes} (ends : Ends rest) : rest.head? ≠ some 46 :=
  fun head => (ends _ head).2.1 rfl

theorem Ends.isExponentMark {rest : Bytes} (ends : Ends rest) :
    isExponentMark rest.head? = false := by
  cases head : rest.head? with
  | none => rfl
  | some byte => simp [Reader.isExponentMark, (ends byte head).2.2.1, (ends byte head).2.2.2]

/-! ## Digits -/

theorem isDigit_iff {byte : UInt8} : isDigit byte = true ↔ 48 ≤ byte.toNat ∧ byte.toNat ≤ 57 := by
  simp [isDigit, UInt8.le_iff_toNat_le]

theorem isDigit_byte {c : Char} (digit : c.isDigit = true) :
    isDigit (UInt8.ofNat c.toNat) = true := by
  rw [isDigit_iff, Text.toNat_byte_digit digit]
  exact Text.toNat_of_isDigit digit

theorem digitOf_byte {c : Char} (digit : c.isDigit = true) :
    digitOf (UInt8.ofNat c.toNat) = c.toNat - 48 := by
  rw [digitOf, Text.toNat_byte_digit digit]

theorem absorb_digits {digits : List Char} (all : ∀ c ∈ digits, c.isDigit = true) {start : Nat}
    (fits : Nat.ofDigitChars 10 digits start < 2 ^ 64) :
    absorb start (Utf8.encodeChars digits) = (Nat.ofDigitChars 10 digits start, []) := by
  induction digits generalizing start with
  | nil => rfl
  | cons c digits ih =>
      have digit := all c List.mem_cons_self
      have others : ∀ other ∈ digits, other.isDigit = true :=
        fun other member => all other (List.mem_cons_of_mem _ member)
      rw [Nat.ofDigitChars_cons] at fits ⊢
      have longer : start * 10 + digitOf (UInt8.ofNat c.toNat) = 10 * start + (c.toNat - 48) := by
        rw [digitOf_byte digit]
        omega
      have bound := Text.le_ofDigitChars digits (10 * start + (c.toNat - '0'.toNat))
      have short : 10 * start + (c.toNat - 48) < Nat.pow 2 64 := Nat.lt_of_le_of_lt bound fits
      rw [Utf8.encodeChars_cons, Text.encodeChar_digit digit, List.singleton_append, absorb, longer]
      simp only [short, if_true]
      exact ih others fits

theorem isDigit_of_mem_encodeChars {digits : List Char} (all : ∀ c ∈ digits, c.isDigit = true) :
    ∀ byte ∈ Utf8.encodeChars digits, isDigit byte = true := by
  induction digits with
  | nil => simp
  | cons c digits ih =>
      have digit := all c List.mem_cons_self
      intro byte member
      rw [Utf8.encodeChars_cons, Text.encodeChar_digit digit, List.singleton_append,
        List.mem_cons] at member
      rcases member with rfl | member
      · exact isDigit_byte digit
      · exact ih (fun other inside => all other (List.mem_cons_of_mem _ inside)) byte member

def Stops (rest : Bytes) : Prop := ∀ byte, rest.head? = some byte → isDigit byte = false

theorem Ends.stops {rest : Bytes} (ends : Ends rest) : Stops rest :=
  fun byte head => (ends byte head).1

theorem digitRun_eq_ok_iff {text digits rest : Bytes} : digitRun text = .ok (digits, rest) ↔
    text = digits ++ rest ∧ (∀ byte ∈ digits, isDigit byte = true) ∧ Stops rest := by
  constructor
  · intro done
    cases done
    refine ⟨List.takeWhile_append_dropWhile.symm, List.all_eq_true.1 List.all_takeWhile,
      fun byte head => ?_⟩
    have stop := List.head?_dropWhile_not isDigit text
    rw [head] at stop
    exact stop
  · rintro ⟨rfl, all, stops⟩
    have stop : rest.takeWhile isDigit = [] ∧ rest.dropWhile isDigit = rest := by
      cases rest with
      | nil => exact ⟨rfl, rfl⟩
      | cons byte rest => simp [stops byte rfl]
    rw [digitRun, List.takeWhile_append_of_pos all, List.dropWhile_append_of_pos all, stop.1,
      stop.2, List.append_nil]

/-! ## Integers without a sign -/

theorem unsigned_read (digits : List Char) (negative : Bool) {size : Nat} {rest : Bytes}
    (all : ∀ c ∈ digits, c.isDigit = true) (value : Nat.ofDigitChars 10 digits 0 = size)
    (fits : size < 2 ^ 64) (ends : Ends rest) :
    unsigned negative (Utf8.encodeChars digits) rest = wholeNumber negative size rest := by
  subst value
  simp only [unsigned, absorb_digits all fits, peek_bind, ends.head_ne, ends.isExponentMark,
    if_false, Bool.false_eq_true, List.isEmpty_nil, if_true]

theorem digitsAndMore_read (negative : Bool) {size : Nat} {rest : Bytes} (fits : size < 2 ^ 64)
    (ends : Ends rest) :
    digitsAndMore negative (Utf8.encodeChars (Nat.toDigits 10 size) ++ rest) =
      wholeNumber negative size rest := by
  rcases Nat.eq_zero_or_pos size with rfl | positive
  · have alone : unsigned negative [48] rest = wholeNumber negative 0 rest :=
      unsigned_read ['0'] negative (List.forall_mem_singleton.2 rfl) rfl fits ends
    change digitsAndMore negative (48 :: rest) = _
    simp only [digitsAndMore, next?_bind, List.head?_cons, List.tail_cons, if_true, peek_bind]
    cases head : rest.head? with
    | none => exact alone
    | some byte => simpa [(ends byte head).1] using alone
  · obtain ⟨first, others, digits, nonzero⟩ := Text.toDigits_eq_cons positive
    have all : ∀ c ∈ first :: others, c.isDigit = true :=
      fun c member => Text.isDigit_of_mem_toDigits (digits ▸ member)
    have digit := all first List.mem_cons_self
    have value : Nat.ofDigitChars 10 (first :: others) 0 = size := by
      rw [← digits, Nat.ofDigitChars_ten_toDigits]
    have some_other : UInt8.ofNat first.toNat ≠ 48 := by
      intro equal
      have number := Text.toNat_byte_digit digit
      rw [equal] at number
      exact nonzero (Char.toNat_inj.1 number.symm)
    have all_bytes : ∀ byte ∈ Utf8.encodeChars others, isDigit byte = true :=
      isDigit_of_mem_encodeChars fun c member => all c (List.mem_cons_of_mem _ member)
    have whole := unsigned_read (first :: others) negative all value fits ends
    rw [Utf8.encodeChars_cons, Text.encodeChar_digit digit, List.singleton_append] at whole
    rw [digits, Utf8.encodeChars_cons, Text.encodeChar_digit digit, List.singleton_append,
      List.cons_append]
    simp only [digitsAndMore, next?_bind, List.head?_cons, List.tail_cons, some_other, if_false,
      isDigit_byte digit, if_true]
    rw [bind_read (digitRun_eq_ok_iff.2 ⟨rfl, all_bytes, ends.stops⟩)]
    exact whole

/-! ## Integers with a sign -/

def Whole (value : Int) : Prop := -2 ^ 63 ≤ value ∧ value < 2 ^ 64

theorem toList_text_nonneg {value : Int} (nonneg : 0 ≤ value) :
    (Number.int value).text.toList = Nat.toDigits 10 value.toNat := by
  rw [Number.text, Int.toString_eq_repr, Int.repr_eq_if, if_pos nonneg, Nat.toList_repr]

theorem toList_text_negative {value : Int} (negative : value < 0) :
    (Number.int value).text.toList = '-' :: Nat.toDigits 10 (-value).toNat := by
  rw [Number.text, Int.toString_eq_repr, Int.repr_eq_if, if_neg (by omega), String.toList_append,
    Nat.toList_repr]
  rfl

theorem wholeNumber_negative {size : Nat} {rest : Bytes} (nonzero : size ≠ 0) (fits : size ≤ 2 ^ 63) :
    wholeNumber true size rest = .ok (.int (-size), rest) := by
  have inside : size ≠ 0 ∧ size ≤ Nat.pow 2 63 := ⟨nonzero, fits⟩
  rw [wholeNumber, Bool.not_true, if_neg Bool.false_ne_true, if_pos inside]
  rfl

theorem number_head (value : Int) : ∃ byte rest,
    Utf8.encodeChars (Number.int value).text.toList = byte :: rest ∧ startsNumber byte = true := by
  rcases Int.lt_or_le value 0 with negative | nonneg
  · rw [toList_text_negative negative]
    exact ⟨45, _, rfl, rfl⟩
  · rw [toList_text_nonneg nonneg]
    cases digits : Nat.toDigits 10 value.toNat with
    | nil => exact absurd digits Nat.toDigits_ne_nil
    | cons first others =>
        have digit : first.isDigit = true :=
          Text.isDigit_of_mem_toDigits (digits ▸ List.mem_cons_self)
        rw [Utf8.encodeChars_cons, Text.encodeChar_digit digit]
        exact ⟨_, _, rfl, by rw [startsNumber, isDigit_byte digit, Bool.or_true]⟩

theorem number_signed (rest : Bytes) : number (45 :: rest) = digitsAndMore true rest := rfl

theorem number_unsigned {byte : UInt8} (rest : Bytes) (unsignedHead : byte ≠ 45) :
    number (byte :: rest) = digitsAndMore false (byte :: rest) := by
  have other : (byte :: rest).head? ≠ some 45 := by simpa using unsignedHead
  rw [number, peek_bind, if_neg other]

theorem number_read {value : Int} {rest : Bytes} (whole : Whole value) (ends : Ends rest) :
    number (Utf8.encodeChars (Number.int value).text.toList ++ rest) = .ok (.int value, rest) := by
  obtain ⟨least, most⟩ := whole
  rcases Int.lt_or_le value 0 with negative | nonneg
  · have fits : (-value).toNat < 2 ^ 64 := by omega
    rw [toList_text_negative negative, Utf8.encodeChars_cons]
    change number (45 :: (Utf8.encodeChars (Nat.toDigits 10 (-value).toNat) ++ rest)) = _
    rw [number_signed, digitsAndMore_read true fits ends,
      wholeNumber_negative (by omega) (by omega), Int.toNat_of_nonneg (by omega), Int.neg_neg]
  · have fits : value.toNat < 2 ^ 64 := by omega
    have read := digitsAndMore_read false fits ends
    obtain ⟨byte, others, text, starts⟩ := number_head value
    have unsignedHead : byte ≠ 45 := by
      rintro rfl
      rw [toList_text_nonneg nonneg] at text
      have digit := isDigit_of_mem_encodeChars
        (fun c => @Text.isDigit_of_mem_toDigits c value.toNat) 45 (text ▸ List.mem_cons_self)
      cases digit
    rw [← toList_text_nonneg nonneg, text] at read
    rw [text, List.cons_append, number_unsigned _ unsignedHead, ← List.cons_append, read]
    simp [wholeNumber, Int.max_eq_left nonneg]

end Bearer.Json.Reader
