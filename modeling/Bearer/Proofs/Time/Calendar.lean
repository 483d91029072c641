import Bearer.Time.Calendar
import Mathlib.Order.Basic
import Mathlib.Tactic.SplitIfs

namespace Bearer.Date

/-! ## Years of a round -/

theorem yearOf_succ (day : Nat) : yearOf day ≤ yearOf (day + 1) := by
  unfold yearOf
  apply Nat.div_le_div_right
  omega

theorem yearOf_mono {day later : Nat} (le : day ≤ later) : yearOf day ≤ yearOf later := by
  induction le with
  | refl => exact Nat.le_refl _
  | step _ ih => exact Nat.le_trans ih (yearOf_succ _)

theorem yearOf_edges : ∀ year < 399, yearOf (daysBeforeYear (year + 1)) = year + 1 ∧
    yearOf (daysBeforeYear (year + 1) - 1) = year := by
  decide +kernel

theorem yearOf_bounds {day : Nat} (inside : day < daysOfRound) : yearOf day < 400 ∧
    daysBeforeYear (yearOf day) ≤ day ∧
    (yearOf day < 399 → day < daysBeforeYear (yearOf day + 1)) := by
  have most : yearOf day ≤ yearOf 146096 := yearOf_mono (Nat.le_of_lt_succ inside)
  have small : yearOf day < 400 := Nat.lt_succ_of_le most
  refine ⟨small, ?_, ?_⟩
  · by_contra later
    obtain ⟨year, isYear⟩ : ∃ year, yearOf day = year + 1 := by
      refine Nat.exists_eq_succ_of_ne_zero fun zero => ?_
      rw [zero] at later
      exact later (Nat.zero_le day)
    rw [isYear] at later small
    have before : yearOf day ≤ yearOf (daysBeforeYear (year + 1) - 1) := yearOf_mono (by omega)
    rw [(yearOf_edges year (by omega)).2, isYear] at before
    omega
  · intro notLast
    by_contra later
    have after := yearOf_mono (Nat.not_lt.1 later)
    rw [(yearOf_edges (yearOf day) notLast).1] at after
    omega

theorem dayOfYear_bounds {day : Nat} (inside : day < daysOfRound) :
    day - daysBeforeYear (yearOf day) ≤ 365 ∧
    (day - daysBeforeYear (yearOf day) = 365 → (yearOf day + 1) % 4 = 0 ∧
      ((yearOf day + 1) % 100 ≠ 0 ∨ (yearOf day + 1) % 400 = 0)) := by
  obtain ⟨small, first, next⟩ := yearOf_bounds inside
  generalize yearOf day = year at *
  simp only [daysBeforeYear, daysOfRound] at *
  by_cases last : year < 399
  · have before := next last
    have fourths : (year + 1) / 4 = year / 4 ∨
        (year + 1) / 4 = year / 4 + 1 ∧ (year + 1) % 4 = 0 := by omega
    have hundredths : (year + 1) / 100 = year / 100 ∧ (year + 1) % 100 ≠ 0 ∨
        (year + 1) / 100 = year / 100 + 1 := by omega
    omega
  · obtain rfl : year = 399 := by omega
    omega

/-! ## Months of a year -/

theorem monthOf_bounds {day : Nat} (inside : day < 366) :
    monthOf day ≤ 11 ∧ daysBeforeMonth (monthOf day) ≤ day := by
  simp only [monthOf, daysBeforeMonth]
  omega

def lengthOfMonth (month : Nat) : Nat :=
  if month = 11 then 29 else if month = 1 ∨ month = 3 ∨ month = 6 ∨ month = 8 then 30 else 31

theorem lt_lengthOfMonth {day : Nat} (inside : day < 366) :
    day - daysBeforeMonth (monthOf day) < lengthOfMonth (monthOf day) := by
  unfold lengthOfMonth
  split
  · simp only [monthOf, daysBeforeMonth] at *
    omega
  · split <;> simp only [monthOf, daysBeforeMonth] at * <;> omega

theorem lt_of_common {day : Nat} (inside : day < 365) : day - daysBeforeMonth 11 < 28 := by
  rw [daysBeforeMonth]
  omega

/-! ## Dates -/

theorem ofDays_eq (days : Int) : ∃ (round : Int) (day : Nat), day < daysOfRound ∧
    days = daysOfRound * round + day + firstDay ∧
    ofDays days =
      let year := yearOf day
      let dayOfYear := day - daysBeforeYear year
      let month := monthOf dayOfYear
      ⟨400 * round + year + if month < 10 then 0 else 1,
        if month < 10 then month + 3 else month - 9,
        dayOfYear - daysBeforeMonth month + 1⟩ := by
  refine ⟨(days - firstDay) / daysOfRound, ((days - firstDay) % daysOfRound).toNat, ?_, ?_, rfl⟩
  · simp only [daysOfRound]
    omega
  · simp only [daysOfRound]
    omega

theorem toDays_ofDays (days : Int) : toDays (ofDays days) = days := by
  obtain ⟨round, day, inside, total, date⟩ := ofDays_eq days
  obtain ⟨small, first, -⟩ := yearOf_bounds inside
  obtain ⟨few, -⟩ := dayOfYear_bounds inside
  obtain ⟨month_le, before⟩ := monthOf_bounds (Nat.lt_succ_of_le few)
  rw [date, total]
  simp only
  generalize yearOf day = year at *
  generalize hday : day - daysBeforeYear year = dayOfYear at *
  generalize monthOf dayOfYear = month at *
  have year_div : (400 * round + (year : Int)) / 400 = round := by omega
  have year_mod : ((400 * round + (year : Int)) % 400).toNat = year := by omega
  unfold toDays
  by_cases early : month < 10
  · simp only [early, if_true, show ¬month + 3 < 3 by omega, if_false, Nat.add_sub_cancel,
      Int.add_zero, year_div, year_mod]
    omega
  · simp only [early, if_false, show month - 9 < 3 by omega, if_true, Int.add_sub_cancel, year_div,
      year_mod, show month - 9 + 9 = month by omega]
    omega

theorem isLeap_of {round : Int} {year : Nat} (fourth : (year + 1) % 4 = 0)
    (century : (year + 1) % 100 ≠ 0 ∨ (year + 1) % 400 = 0) :
    isLeap (400 * round + year + 1) = true := by
  simp only [isLeap, Bool.and_eq_true, Bool.or_eq_true, beq_iff_eq, bne_iff_ne]
  omega

theorem isValid_ofDays (days : Int) : (ofDays days).isValid = true := by
  obtain ⟨round, day, inside, -, date⟩ := ofDays_eq days
  obtain ⟨few, leap⟩ := dayOfYear_bounds inside
  have month_le := (monthOf_bounds (Nat.lt_succ_of_le few)).1
  have short := lt_lengthOfMonth (Nat.lt_succ_of_le few)
  rw [date]
  simp only
  generalize yearOf day = year at *
  generalize day - daysBeforeYear year = dayOfYear at *
  generalize monthOf dayOfYear = month at *
  simp only [isValid, Bool.and_eq_true, decide_eq_true_eq]
  by_cases february : month = 11
  · subst february
    have atMost : dayOfYear - daysBeforeMonth 11 + 1 ≤
        if isLeap (400 * round + year + 1) = true then 29 else 28 := by
      by_cases last : dayOfYear = 365
      · rw [if_pos (isLeap_of (leap last).1 (leap last).2)]
        exact short
      · have shorter := lt_of_common (show dayOfYear < 365 by omega)
        split <;> omega
    exact ⟨⟨⟨by decide, by decide⟩, by omega⟩, atMost⟩
  · have length : daysInMonth (400 * round + year + if month < 10 then 0 else 1)
        (if month < 10 then month + 3 else month - 9) = lengthOfMonth month := by
      unfold daysInMonth lengthOfMonth
      split_ifs <;> omega
    rw [length]
    refine ⟨⟨⟨?_, ?_⟩, by omega⟩, short⟩ <;> split <;> omega

end Bearer.Date
