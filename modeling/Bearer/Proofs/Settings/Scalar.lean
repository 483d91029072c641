import Bearer.Proofs.Text.Integer
import Bearer.Settings.Variable
import Mathlib.Data.List.TakeDrop

namespace Bearer

/-! ## What numbers are written with -/

def numberChars : List Char := "0123456789+-.eE".toList

theorem mem_numberChars_of_isDigit {c : Char} (digit : c.isDigit = true) : c ∈ numberChars := by
  obtain ⟨least, most⟩ := Text.toNat_of_isDigit digit
  have member : ∀ number < 58, 48 ≤ number → Char.ofNat number ∈ numberChars := by decide
  have here := member c.toNat (by omega) least
  rwa [Char.ofNat_toNat] at here

namespace Binary64

open Text (isDigit_of_digitValue?)

theorem mem_numberChars_of_digit {c : Char} (digit : isDigit c = true) : c ∈ numberChars := by
  obtain ⟨value, isValue⟩ := Option.isSome_iff_exists.1 digit
  exact mem_numberChars_of_isDigit (isDigit_of_digitValue? isValue)

theorem subset_of_splitSign {chars : List Char}
    (behind : (splitSign chars).2 ⊆ numberChars) : chars ⊆ numberChars := by
  unfold splitSign at behind
  split at behind
  · exact List.cons_subset.2 ⟨by decide, behind⟩
  · exact List.cons_subset.2 ⟨by decide, behind⟩
  · exact behind

theorem subset_of_span {chars : List Char}
    (behind : (chars.span isDigit).2 ⊆ numberChars) : chars ⊆ numberChars := by
  rw [List.span_eq_takeWhile_dropWhile] at behind
  intro c member
  rw [← List.takeWhile_append_dropWhile (p := isDigit) (l := chars)] at member
  rcases List.mem_append.1 member with inside | outside
  · exact mem_numberChars_of_digit (List.mem_takeWhile_imp inside)
  · exact behind outside

theorem subset_of_splitFraction {chars : List Char}
    (behind : (splitFraction chars).2 ⊆ numberChars) : chars ⊆ numberChars := by
  unfold splitFraction at behind
  split at behind
  · exact List.cons_subset.2 ⟨by decide, subset_of_span behind⟩
  · exact behind

theorem subset_of_readPower? {chars : List Char} {power : Int}
    (read : readPower? chars = some power) : chars ⊆ numberChars := by
  unfold readPower? at read
  split at read
  · exact List.nil_subset _
  · next c rest =>
      dsimp only at read
      split at read
      · next marked =>
          obtain ⟨isMark, -, all⟩ := marked
          refine List.cons_subset.2 ⟨?_, subset_of_splitSign fun c member => ?_⟩
          · rcases isMark with rfl | rfl <;> decide
          · exact mem_numberChars_of_digit (List.all_eq_true.1 all c member)
      · cases read

theorem subset_of_ofText? {chars : List Char} {value : Binary64}
    (read : ofText? chars = some value) : chars ⊆ numberChars := by
  obtain ⟨_, _, read⟩ := Option.bind_eq_some_iff.1 read
  obtain ⟨power, isPower, -⟩ := Option.bind_eq_some_iff.1 read
  exact subset_of_splitSign (subset_of_span
    (subset_of_splitFraction (subset_of_readPower? isPower)))

end Binary64

namespace Text

theorem Numeral.subset_numberChars {digits : List Char} {value : Nat}
    (numeral : Numeral digits value) : digits ⊆ numberChars := fun c member =>
  mem_numberChars_of_isDigit (numeral.all c member)

theorem NaturalText.subset_numberChars {chars : List Char} {value : Nat}
    (written : NaturalText value chars) : chars ⊆ numberChars := by
  cases written with
  | plain numeral => exact numeral.subset_numberChars
  | plus numeral => exact List.cons_subset.2 ⟨by decide, numeral.subset_numberChars⟩

theorem IntegerText.subset_numberChars {chars : List Char} {value : Int}
    (written : IntegerText value chars) : chars ⊆ numberChars := by
  cases written with
  | natural written => exact written.subset_numberChars
  | negative numeral => exact List.cons_subset.2 ⟨by decide, numeral.subset_numberChars⟩

end Text

/-! ## Numbers and texts -/

namespace Settings

def Scalar.text? : Scalar → Option String
  | .text value => some value
  | .char value => some value.toString
  | _ => none

namespace Inline

open Text (NaturalText IntegerText natural_eq_ok_iff integer_eq_ok_iff)

inductive NumberText (chars : List Char) : Prop where
  | natural {value : Nat} (written : NaturalText value chars) (fits : value < Nat.pow 2 64)
  | integer {value : Int} (written : IntegerText value chars)
      (fits : -Nat.pow 2 63 ≤ value ∧ value < Nat.pow 2 63)
  | decimal {value : Binary64} (pointed : '.' ∈ chars) (read : Binary64.ofText? chars = some value)

theorem NumberText.subset_numberChars {chars : List Char} (isNumber : NumberText chars) :
    chars ⊆ numberChars := by
  cases isNumber with
  | natural written _ => exact written.subset_numberChars
  | integer written _ => exact written.subset_numberChars
  | decimal _ read => exact Binary64.subset_of_ofText? read

theorem float?_eq_some_iff {chars : List Char} {value : Binary64} :
    (if chars.contains '.' then Binary64.ofText? chars else none) = some value ↔
      '.' ∈ chars ∧ Binary64.ofText? chars = some value := by
  split
  · next pointed => exact ⟨fun read => ⟨List.contains_iff_mem.1 pointed, read⟩, And.right⟩
  · next pointless => exact ⟨nofun, fun read => absurd (List.contains_iff_mem.2 read.1) pointless⟩

theorem natural_64_iff {chars : List Char} {value : Nat} :
    Text.natural (Nat.pow 2 64) chars = .ok value ↔
      NaturalText value chars ∧ value < Nat.pow 2 64 :=
  natural_eq_ok_iff (by decide)

theorem integer_64_iff {chars : List Char} {value : Int} :
    Text.integer (Nat.pow 2 63) chars = .ok value ↔
      IntegerText value chars ∧ -Nat.pow 2 63 ≤ value ∧ value < Nat.pow 2 63 :=
  integer_eq_ok_iff (by decide)

theorem text?_bareScalar {chars : List Char} (isNumber : NumberText chars) :
    (bareScalar chars).text? = none := by
  unfold bareScalar
  split
  · rfl
  · next noFloat =>
      split
      · rfl
      · rfl
      · next noNatural noInteger =>
          cases isNumber with
          | natural written fits => cases noNatural.symm.trans (natural_64_iff.2 ⟨written, fits⟩)
          | integer written fits => cases noInteger.symm.trans (integer_64_iff.2 ⟨written, fits⟩)
          | decimal pointed read => cases noFloat.symm.trans (float?_eq_some_iff.2 ⟨pointed, read⟩)

theorem bareScalar_eq_text {chars : List Char} (isText : ¬NumberText chars) :
    bareScalar chars = .text (String.ofList chars) := by
  unfold bareScalar
  split
  · next isFloat =>
      obtain ⟨pointed, read⟩ := float?_eq_some_iff.1 isFloat
      exact absurd (.decimal pointed read) isText
  · split
    · next isNatural =>
        obtain ⟨written, fits⟩ := natural_64_iff.1 isNatural
        exact absurd (.natural written fits) isText
    · next isInteger =>
        obtain ⟨written, fits⟩ := integer_64_iff.1 isInteger
        exact absurd (.integer written fits) isText
    · rfl

end Inline

end Settings

end Bearer
