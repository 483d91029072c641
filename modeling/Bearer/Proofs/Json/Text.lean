import Bearer.Json.Reader.Text
import Bearer.Proofs.Json.Reader
import Bearer.Proofs.Text.Utf8

namespace Bearer.Json.Reader

/-! ## One character -/

def Literal (byte : UInt8) : Prop := byte ≠ quote ∧ byte ≠ 92 ∧ ¬byte < 32

theorem hexQuad_control : ∀ value < 32, [48, 48, UInt8.ofNat (Hex.digit (value / 16)).toNat,
    UInt8.ofNat (Hex.digit (value % 16)).toNat].mapM hexValue? =
      some [0, 0, value / 16, value % 16] := by
  decide

theorem toNat_digit_lt : ∀ value < 16, (Hex.digit value).toNat < 128 := by decide

theorem encodeChar_digit {value : Nat} (small : value < 16) :
    String.utf8EncodeChar (Hex.digit value) = [UInt8.ofNat (Hex.digit value).toNat] :=
  Utf8.encodeChar_ascii (toNat_digit_lt value small)

theorem escape_control {c : Char} (control : c.toNat < 32) (rest : Bytes) :
    escape (Utf8.encodeChars ['u', '0', '0', Hex.digit (c.toNat / 16), Hex.digit (c.toNat % 16)] ++
      rest) = .ok (String.utf8EncodeChar c, rest) := by
  have quad : hexQuad (48 :: 48 :: UInt8.ofNat (Hex.digit (c.toNat / 16)).toNat ::
      UInt8.ofNat (Hex.digit (c.toNat % 16)).toNat :: rest) = .ok (c.toNat, rest) := by
    simp only [hexQuad, hexQuad_control c.toNat control, List.foldl_cons, List.foldl_nil]
    congr 2
    omega
  have number : codePoint (48 :: 48 :: UInt8.ofNat (Hex.digit (c.toNat / 16)).toNat ::
      UInt8.ofNat (Hex.digit (c.toNat % 16)).toNat :: rest) = .ok (c.toNat, rest) := by
    have low : isLowSurrogate c.toNat = false := by
      simp only [isLowSurrogate, Bool.and_eq_false_iff, decide_eq_false_iff_not]
      omega
    have high : isHighSurrogate c.toNat = false := by
      simp only [isHighSurrogate, Bool.and_eq_false_iff, decide_eq_false_iff_not]
      omega
    rw [codePoint, bind_read quad, low, if_neg Bool.false_ne_true, high,
      if_neg Bool.false_ne_true, pure_read]
  simp only [Utf8.encodeChars_cons, Utf8.encodeChars_nil, List.append_nil,
    encodeChar_digit (show c.toNat / 16 < 16 by omega),
    encodeChar_digit (show c.toNat % 16 < 16 by omega), List.singleton_append, List.append_assoc]
  change escape (117 :: 48 :: 48 :: _ :: _ :: rest) = _
  have letter : simpleEscape? 117 = none := by decide
  simp only [escape, next?_bind, List.head?_cons, List.tail_cons, letter, if_true]
  rw [bind_read number, pure_read, Char.ofNat_toNat]

theorem literal_of_mem_encodeChar {c : Char} (notQuote : c ≠ '"') (notSlash : c ≠ '\\')
    (solid : ¬c.toNat < 32) {byte : UInt8} (member : byte ∈ String.utf8EncodeChar c) :
    Literal byte := by
  by_cases ascii : c.toNat < 128
  · rw [Utf8.encodeChar_ascii ascii, List.mem_singleton] at member
    have value : byte.toNat = c.toNat := by rw [member, Utf8.toNat_byte (by omega)]
    refine ⟨?_, ?_, ?_⟩
    · rintro rfl
      exact notQuote (Char.toNat_inj.1 value.symm)
    · rintro rfl
      exact notSlash (Char.toNat_inj.1 value.symm)
    · rw [UInt8.lt_iff_toNat_lt, value]
      exact solid
  · have high := Utf8.le_of_mem_encodeChar (Nat.not_lt.1 ascii) member
    refine ⟨?_, ?_, ?_⟩
    · rintro rfl
      exact absurd high (by decide)
    · rintro rfl
      exact absurd high (by decide)
    · rw [UInt8.lt_iff_toNat_lt, Nat.not_lt]
      exact Nat.le_trans (by decide) high

theorem escapeChar_read (c : Char) :
    (∃ letters, escapeChar c = '\\' :: letters ∧
      ∀ rest, escape (Utf8.encodeChars letters ++ rest) = .ok (String.utf8EncodeChar c, rest)) ∨
    (escapeChar c = [c] ∧ ∀ byte ∈ String.utf8EncodeChar c, Literal byte) := by
  unfold escapeChar
  split_ifs with isQuote isSlash isLine isReturn isTab isBack isFeed control
  · subst isQuote
    exact .inl ⟨_, rfl, fun rest => rfl⟩
  · subst isSlash
    exact .inl ⟨_, rfl, fun rest => rfl⟩
  · subst isLine
    exact .inl ⟨_, rfl, fun rest => rfl⟩
  · subst isReturn
    exact .inl ⟨_, rfl, fun rest => rfl⟩
  · subst isTab
    exact .inl ⟨_, rfl, fun rest => rfl⟩
  · subst isBack
    exact .inl ⟨_, rfl, fun rest => rfl⟩
  · subst isFeed
    exact .inl ⟨_, rfl, fun rest => rfl⟩
  · exact .inl ⟨_, rfl, escape_control control⟩
  · exact .inr ⟨rfl, fun byte => literal_of_mem_encodeChar isQuote isSlash control⟩

/-! ## All characters up to the quote -/

theorem contents_literal {bytes : Bytes} (literal : ∀ byte ∈ bytes, Literal byte) {rounds : Nat}
    {text rest : Bytes} {found : Bytes} (done : contents rounds text = .ok (found, rest)) :
    contents (bytes.length + rounds) (bytes ++ text) = .ok (bytes ++ found, rest) := by
  induction bytes with
  | nil => simpa using done
  | cons byte bytes ih =>
      obtain ⟨notQuote, notSlash, solid⟩ := literal byte List.mem_cons_self
      have others := ih fun other member => literal other (List.mem_cons_of_mem _ member)
      rw [List.length_cons, Nat.succ_add, List.cons_append]
      simp only [contents, next?_bind, List.head?_cons, List.tail_cons, notQuote, notSlash, solid,
        if_false]
      rw [bind_read others]
      rfl

theorem contents_escape {letters : List Char} {rounds : Nat} {written text rest found : Bytes}
    (means : ∀ rest, escape (Utf8.encodeChars letters ++ rest) = .ok (written, rest))
    (done : contents rounds text = .ok (found, rest)) :
    contents (rounds + 1) (92 :: (Utf8.encodeChars letters ++ text)) =
      .ok (written ++ found, rest) := by
  simp only [contents, next?_bind, List.head?_cons, List.tail_cons,
    show (92 : UInt8) ≠ quote by decide, if_false, if_true]
  rw [bind_read (means text), bind_read done]
  rfl

theorem contents_read (chars : List Char) (rest : Bytes) {rounds : Nat}
    (enough : (Utf8.encodeChars (chars.flatMap escapeChar)).length < rounds) :
    contents rounds (Utf8.encodeChars (chars.flatMap escapeChar) ++ quote :: rest) =
      .ok (Utf8.encodeChars chars, rest) := by
  induction chars generalizing rounds with
  | nil =>
      obtain ⟨rounds, rfl⟩ := Nat.exists_eq_succ_of_ne_zero (Nat.ne_zero_of_lt enough)
      rfl
  | cons c chars ih =>
      rw [List.flatMap_cons, Utf8.encodeChars_append] at enough ⊢
      rw [List.length_append] at enough
      rw [List.append_assoc, Utf8.encodeChars_cons]
      rcases escapeChar_read c with ⟨letters, escaped, means⟩ | ⟨plain, literal⟩
      · rw [escaped] at enough ⊢
        rw [Utf8.encodeChars_cons, List.length_append] at enough
        have slash : String.utf8EncodeChar '\\' = [92] := by decide
        rw [slash, List.length_singleton] at enough
        obtain ⟨rounds, rfl⟩ := Nat.exists_eq_succ_of_ne_zero (Nat.ne_zero_of_lt enough)
        rw [Utf8.encodeChars_cons, slash, List.singleton_append, List.cons_append]
        exact contents_escape means (ih (by omega))
      · rw [plain, Utf8.encodeChars_cons, Utf8.encodeChars_nil, List.append_nil] at enough ⊢
        obtain ⟨fewer, rfl⟩ := Nat.exists_eq_add_of_lt enough
        rw [Nat.add_assoc, Nat.add_assoc]
        exact contents_literal literal (ih (by omega))

/-! ## Whole strings -/

def quotedBytes (text : String) : Bytes :=
  Utf8.encodeChars (text.toList.flatMap escapeChar) ++ [quote]

theorem encodeChars_stringChars (text : String) :
    Utf8.encodeChars (stringChars text) = quote :: quotedBytes text := by
  rw [stringChars, Utf8.encodeChars_append, Utf8.encodeChars_cons]
  rfl

theorem quotedText_read (text : String) (rest : Bytes) :
    quotedText (quotedBytes text ++ rest) = .ok (text, rest) := by
  have chars : contents ((quotedBytes text ++ rest).length + 1) (quotedBytes text ++ rest) =
      .ok (Utf8.encodeChars text.toList, rest) := by
    have enough : (Utf8.encodeChars (text.toList.flatMap escapeChar)).length <
        (quotedBytes text ++ rest).length + 1 := by
      simp only [quotedBytes, List.length_append]
      omega
    have read := contents_read text.toList rest enough
    rwa [← List.singleton_append, ← List.append_assoc] at read
  have back : Utf8.decode? (Utf8.encodeChars text.toList) = some text := Utf8.decode?_encode text
  unfold quotedText
  rw [rounds_bind, bind_read chars, back]
  rfl

theorem name_read (text : String) (rest : Bytes) :
    name (quote :: (quotedBytes text ++ rest)) = .ok (text, rest) := by
  rw [name, skipOne_bind]
  exact quotedText_read text rest

end Bearer.Json.Reader
