import Bearer.Proofs.Text.Utf8
import Bearer.Text.Digits
import Mathlib.Algebra.Group.Int.Defs
import Mathlib.Algebra.Group.Nat.Defs

namespace Bearer.Text

theorem toNat_of_isDigit {c : Char} (digit : c.isDigit = true) : 48 ≤ c.toNat ∧ c.toNat ≤ 57 := by
  simp only [Char.isDigit, Bool.and_eq_true, decide_eq_true_eq, UInt32.le_iff_toNat_le,
    ge_iff_le] at digit
  exact digit

theorem encodeChar_digit {c : Char} (digit : c.isDigit = true) :
    String.utf8EncodeChar c = [UInt8.ofNat c.toNat] := by
  have bounds := toNat_of_isDigit digit
  exact Utf8.encodeChar_ascii (by omega)

theorem toNat_byte_digit {c : Char} (digit : c.isDigit = true) :
    (UInt8.ofNat c.toNat).toNat = c.toNat := by
  have bounds := toNat_of_isDigit digit
  exact Utf8.toNat_byte (by omega)

theorem le_ofDigitChars (digits : List Char) (start : Nat) :
    start ≤ Nat.ofDigitChars 10 digits start := by
  rw [Nat.ofDigitChars_eq_ofDigitChars_zero]
  have scaled := Nat.le_mul_of_pos_left start (Nat.pow_pos (by decide : 0 < 10) (n := digits.length))
  omega

/-! ## No zeros in front -/

theorem isDigit_of_mem_toDigits {c : Char} {value : Nat} (member : c ∈ Nat.toDigits 10 value) :
    c.isDigit = true := Nat.isDigit_of_mem_toDigits (by decide) (by decide) member

theorem digitChar_ne_zero {value : Nat} (positive : 0 < value) (small : value < 10) :
    Nat.digitChar value ≠ '0' := by
  intro equal
  have back := Nat.toNat_digitChar_sub_48_of_lt_ten small
  rw [equal] at back
  simp at back
  omega

theorem toDigits_eq_cons {value : Nat} (positive : 0 < value) :
    ∃ first rest, Nat.toDigits 10 value = first :: rest ∧ first ≠ '0' := by
  induction value using Nat.strongRecOn with
  | ind value ih =>
      by_cases small : value < 10
      · exact ⟨_, [], Nat.toDigits_of_lt_base small, digitChar_ne_zero positive small⟩
      · obtain ⟨first, rest, digits, nonzero⟩ := ih (value / 10) (by omega) (by omega)
        refine ⟨first, rest ++ [Nat.digitChar (value % 10)], ?_, nonzero⟩
        rw [Nat.toDigits_of_base_le (by decide) (by omega), digits, List.cons_append]

/-! ## A fixed width -/

theorem isDigit_of_mem_padded {c : Char} {width value : Nat} (member : c ∈ padded width value) :
    c.isDigit = true := by
  rcases List.mem_append.1 member with zero | digit
  · rw [List.eq_of_mem_replicate zero]
    decide
  · exact isDigit_of_mem_toDigits digit

@[simp] theorem ofDigitChars_padded (width value : Nat) :
    Nat.ofDigitChars 10 (padded width value) 0 = value := by
  simp only [padded, Nat.ofDigitChars_append, Nat.ofDigitChars_replicate_zero, Nat.mul_zero,
    Nat.ofDigitChars_ten_toDigits]

theorem length_padded {width value : Nat} (positive : 0 < width) (fits : value < 10 ^ width) :
    (padded width value).length = width := by
  have short := (Nat.length_toDigits_le_iff (by decide) positive).2 fits
  simp only [padded, List.length_append, List.length_replicate]
  omega

end Bearer.Text
