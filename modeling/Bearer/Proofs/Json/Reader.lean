import Bearer.Json.Reader
import Bearer.Proofs.Outcome

namespace Bearer.Json.Reader

variable {β : Type}

@[simp] theorem peek_bind (next : Option UInt8 → Reader β) (rest : Bytes) :
    (peek >>= next) rest = next rest.head? rest := rfl

@[simp] theorem next?_bind (next : Option UInt8 → Reader β) (rest : Bytes) :
    (next? >>= next) rest = next rest.head? rest.tail := rfl

@[simp] theorem skipOne_bind (next : Unit → Reader β) (rest : Bytes) :
    (skipOne >>= next) rest = next () rest.tail := rfl

@[simp] theorem rounds_bind (next : Nat → Reader β) (rest : Bytes) :
    (rounds >>= next) rest = next (rest.length + 1) rest := rfl

/-! ## Blanks -/

def Blank (bytes : Bytes) : Prop := ∀ byte ∈ bytes, isBlank byte = true

theorem blank_nil : Blank [] := by simp [Blank]

theorem dropWhile_blanks {blanks : Bytes} {byte : UInt8} {rest : Bytes} (blank : Blank blanks)
    (solid : isBlank byte = false) :
    (blanks ++ byte :: rest).dropWhile isBlank = byte :: rest := by
  rw [List.dropWhile_append_of_pos blank, List.dropWhile_cons_of_neg (by simp [solid])]

theorem peekSolid_bind {blanks : Bytes} {byte : UInt8} {rest : Bytes} (blank : Blank blanks)
    (solid : isBlank byte = false) (next : Option UInt8 → Reader β) :
    (peekSolid >>= next) (blanks ++ byte :: rest) = next (some byte) (byte :: rest) := by
  have seen : peekSolid (blanks ++ byte :: rest) = .ok (some byte, byte :: rest) := by
    change Except.ok (((blanks ++ byte :: rest).dropWhile isBlank).head?,
      (blanks ++ byte :: rest).dropWhile isBlank) = _
    rw [dropWhile_blanks blank solid]
    rfl
  exact bind_read seen next

theorem peekSolid_bind_cons {byte : UInt8} {rest : Bytes} (solid : isBlank byte = false)
    (next : Option UInt8 → Reader β) :
    (peekSolid >>= next) (byte :: rest) = next (some byte) (byte :: rest) :=
  peekSolid_bind blank_nil solid next

/-! ## Punctuation -/

theorem encodeChar_comma : String.utf8EncodeChar ',' = [comma] := by decide
theorem encodeChar_colon : String.utf8EncodeChar ':' = [colon] := by decide
theorem encodeChar_openBracket : String.utf8EncodeChar '[' = [openBracket] := by decide
theorem encodeChar_closeBracket : String.utf8EncodeChar ']' = [closeBracket] := by decide
theorem encodeChar_openBrace : String.utf8EncodeChar '\x7b' = [openBrace] := by decide
theorem encodeChar_closeBrace : String.utf8EncodeChar '\x7d' = [closeBrace] := by decide

theorem word_read (letters rest : Bytes) : word letters (letters ++ rest) = .ok ((), rest) := by
  induction letters with
  | nil => rfl
  | cons letter letters ih =>
      simp only [word, next?_bind, List.cons_append, List.head?_cons, if_true, List.tail_cons]
      exact ih

theorem readColon_read (rest : Bytes) : readColon (colon :: rest) = .ok ((), rest) := by
  unfold readColon
  rw [peekSolid_bind_cons (by decide)]
  rfl

/-! ## Between items and members -/

theorem moreItems_first {byte : UInt8} {rest : Bytes} (solid : isBlank byte = false)
    (inside : byte ≠ closeBracket) :
    moreItems true (byte :: rest) = .ok (true, byte :: rest) := by
  unfold moreItems
  rw [peekSolid_bind_cons solid]
  simp [inside]

theorem moreItems_comma {byte : UInt8} {rest : Bytes} (solid : isBlank byte = false)
    (inside : byte ≠ closeBracket) :
    moreItems false (comma :: byte :: rest) = .ok (true, byte :: rest) := by
  unfold moreItems
  rw [peekSolid_bind_cons (by decide)]
  simp only [show comma ≠ closeBracket by decide, if_false, Bool.false_eq_true, if_true,
    skipOne_bind, List.tail_cons]
  rw [peekSolid_bind_cons solid]
  simp [inside]

theorem moreItems_close (first : Bool) (rest : Bytes) :
    moreItems first (closeBracket :: rest) = .ok (false, closeBracket :: rest) := by
  unfold moreItems
  rw [peekSolid_bind_cons (by decide)]
  simp

theorem closeList_read (rest : Bytes) : closeList (closeBracket :: rest) = .ok ((), rest) := by
  unfold closeList
  rw [peekSolid_bind_cons (by decide)]
  rfl

section Items

variable {α : Type} {item : Reader α} {rounds : Nat} {first : Bool} {text rest : Bytes}

theorem items_end (asked : moreItems first text = .ok (false, rest)) :
    items item (rounds + 1) first text = .ok ([], rest) := by
  rw [items, bind_read asked]
  rfl

theorem items_round {solid between : Bytes} {head : α} {tail : List α}
    (asked : moreItems first text = .ok (true, solid)) (front : item solid = .ok (head, between))
    (others : items item rounds false between = .ok (tail, rest)) :
    items item (rounds + 1) first text = .ok (head :: tail, rest) := by
  rw [items, bind_read asked, if_pos rfl, bind_read front, bind_read others, pure_read]

end Items

theorem moreMembers_first {blanks : Bytes} (rest : Bytes) (blank : Blank blanks) :
    moreMembers true (blanks ++ quote :: rest) = .ok (true, quote :: rest) := by
  unfold moreMembers
  rw [peekSolid_bind blank (by decide)]
  rfl

theorem moreMembers_comma {blanks : Bytes} (rest : Bytes) (blank : Blank blanks) :
    moreMembers false (comma :: (blanks ++ quote :: rest)) = .ok (true, quote :: rest) := by
  unfold moreMembers
  rw [peekSolid_bind_cons (by decide)]
  simp only [show comma ≠ closeBrace by decide, if_false, Bool.false_eq_true, if_true, skipOne_bind,
    List.tail_cons]
  rw [peekSolid_bind blank (by decide)]
  rfl

theorem moreMembers_close {blanks : Bytes} (first : Bool) (rest : Bytes) (blank : Blank blanks) :
    moreMembers first (blanks ++ closeBrace :: rest) = .ok (false, closeBrace :: rest) := by
  unfold moreMembers
  rw [peekSolid_bind blank (by decide)]
  simp

end Bearer.Json.Reader
