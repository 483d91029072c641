import Bearer.Text.Blank
import Mathlib.Data.List.TakeWhile

namespace Bearer.Text

def Blank (chars : List Char) : Prop := ∀ c ∈ chars, isBlank c = true

def Solid (chars : List Char) : Prop := ∀ c ∈ chars, isBlank c = false

theorem Solid.append {front back : List Char} (solid : Solid front) (solid' : Solid back) :
    Solid (front ++ back) := fun c member =>
  (List.mem_append.1 member).elim (solid c) (solid' c)

theorem dropWhile_solid {chars : List Char} (solid : Solid chars) :
    chars.dropWhile isBlank = chars := by
  cases chars with
  | nil => rfl
  | cons c chars => exact List.dropWhile_cons_of_neg (by simp [solid c List.mem_cons_self])

theorem trimStart_blank {left : List Char} (blank : Blank left) (rest : List Char) :
    trimStart (left ++ rest) = trimStart rest := List.dropWhile_append_of_pos blank

theorem trimEnd_blank {right : List Char} (blank : Blank right) (rest : List Char) :
    trimEnd (rest ++ right) = trimEnd rest := by
  have reversed : Blank right.reverse := fun c member => blank c (List.mem_reverse.1 member)
  have dropped : (right.reverse ++ rest.reverse).dropWhile isBlank =
      rest.reverse.dropWhile isBlank := trimStart_blank reversed rest.reverse
  rw [trimEnd, List.reverse_append, dropped, trimEnd]

theorem trimEnd_solid {chars : List Char} (solid : Solid chars) : trimEnd chars = chars := by
  have reversed : Solid chars.reverse := fun c member => solid c (List.mem_reverse.1 member)
  rw [trimEnd, dropWhile_solid reversed, List.reverse_reverse]

theorem trim_between {left core right : List Char} (blank : Blank left) (solid : Solid core)
    (blank' : Blank right) : trim (left ++ core ++ right) = core := by
  rw [trim, List.append_assoc, trimStart_blank blank]
  cases core with
  | nil =>
      have none : trimStart right = [] := List.dropWhile_eq_nil_iff.2 blank'
      rw [List.nil_append, none]
      rfl
  | cons c core =>
      have start : trimStart (c :: core ++ right) = c :: core ++ right :=
        List.dropWhile_cons_of_neg (by simp [solid c List.mem_cons_self])
      rw [start, trimEnd_blank blank', trimEnd_solid solid]

theorem trim_solid {chars : List Char} (solid : Solid chars) : trim chars = chars := by
  have none : Blank [] := List.forall_mem_nil _
  simpa using trim_between none solid none

/-! ## Texts without white space at their ends -/

theorem length_trimStart_le (chars : List Char) : (trimStart chars).length ≤ chars.length :=
  (List.dropWhile_sublist _).length_le

theorem length_trimEnd_le (chars : List Char) : (trimEnd chars).length ≤ chars.length := by
  have shorter := length_trimStart_le chars.reverse
  rw [List.length_reverse] at shorter
  rw [trimEnd, List.length_reverse]
  exact shorter

theorem trimStart_of_trim {chars : List Char} (trimmed : trim chars = chars) :
    trimStart chars = chars := by
  have shorter := length_trimEnd_le (trimStart chars)
  rw [← trim, trimmed] at shorter
  exact (List.dropWhile_suffix _).eq_of_length
    (Nat.le_antisymm (length_trimStart_le chars) shorter)

theorem trimEnd_of_trim {chars : List Char} (trimmed : trim chars = chars) :
    trimEnd chars = chars := by
  rw [trim, trimStart_of_trim trimmed] at trimmed
  exact trimmed

theorem eq_nil_of_trim {front rest : List Char} (trimmed : trim (front ++ rest) = front ++ rest)
    (blank : Blank rest) : rest = [] := by
  have kept := trimEnd_of_trim trimmed
  rw [trimEnd_blank blank] at kept
  have shorter := length_trimEnd_le front
  rw [kept, List.length_append] at shorter
  exact List.length_eq_zero_iff.1 (by omega)

theorem isBlank_head_of_trim {c : Char} {rest : List Char} (trimmed : trim (c :: rest) = c :: rest) :
    isBlank c = false := by
  by_contra blank
  have kept := trimStart_of_trim trimmed
  rw [trimStart, List.dropWhile_cons_of_pos (by simpa using blank)] at kept
  have shorter := length_trimStart_le rest
  rw [trimStart, kept, List.length_cons] at shorter
  omega

/-! ## White space cut off -/

theorem exists_trimEnd (chars : List Char) :
    ∃ right, Blank right ∧ chars = trimEnd chars ++ right := by
  refine ⟨(chars.reverse.takeWhile isBlank).reverse, ?_, ?_⟩
  · exact fun c member => List.mem_takeWhile_imp (List.mem_reverse.1 member)
  · rw [trimEnd, ← List.reverse_append, List.takeWhile_append_dropWhile, List.reverse_reverse]

theorem exists_trim (chars : List Char) :
    ∃ left right, Blank left ∧ Blank right ∧ chars = left ++ trim chars ++ right := by
  obtain ⟨right, blank, whole⟩ := exists_trimEnd (trimStart chars)
  refine ⟨chars.takeWhile isBlank, right, fun c => List.mem_takeWhile_imp, blank, ?_⟩
  rw [List.append_assoc, trim, ← whole]
  exact List.takeWhile_append_dropWhile.symm

end Bearer.Text
