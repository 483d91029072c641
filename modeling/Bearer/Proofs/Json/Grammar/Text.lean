import Bearer.Proofs.Json.Text

namespace Bearer.Json

open Reader

/-! ## Escapes -/

inductive HexText : Bytes → Nat → Bytes → Prop where
  | intro {a b c d : UInt8} {values : List Nat}
      (digits : [a, b, c, d].mapM hexValue? = some values) (rest : Bytes) :
      HexText (a :: b :: c :: d :: rest)
        (values.foldl (fun number value => number * 16 + value) 0) rest

inductive CodePointText : Bytes → Nat → Bytes → Prop where
  | single {text rest : Bytes} {number : Nat} (digits : HexText text number rest)
      (notLow : isLowSurrogate number = false) (notHigh : isHighSurrogate number = false) :
      CodePointText text number rest
  | pair {text more rest : Bytes} {high low : Nat} (first : HexText text high (92 :: 117 :: more))
      (isHigh : isHighSurrogate high = true) (second : HexText more low rest)
      (isLow : isLowSurrogate low = true) :
      CodePointText text ((high - 0xd800) * 1024 + (low - 0xdc00) + 0x10000) rest

inductive EscapeText : Bytes → Bytes → Bytes → Prop where
  | simple {byte plain : UInt8} (known : simpleEscape? byte = some plain) (rest : Bytes) :
      EscapeText (byte :: rest) [plain] rest
  | unicode {text rest : Bytes} {number : Nat} (point : CodePointText text number rest) :
      EscapeText (117 :: text) (String.utf8EncodeChar (Char.ofNat number)) rest

theorem hexQuad_eq_ok_iff {text rest : Bytes} {number : Nat} :
    hexQuad text = .ok (number, rest) ↔ HexText text number rest := by
  constructor
  · intro done
    unfold hexQuad at done
    split at done
    · split at done
      · next digits =>
          cases done
          exact .intro digits _
      · cases done
    · cases done
  · rintro ⟨digits, rest⟩
    simp only [hexQuad, digits]

theorem pairWith_eq_ok_iff {byte : UInt8} {text rest : Bytes} {found : Unit} :
    pairWith byte text = .ok (found, rest) ↔ text = byte :: rest := by
  cases text with
  | nil => simp [pairWith, fail]
  | cons other text =>
      rw [pairWith, next?_bind]
      by_cases same : other = byte
      · simp [same]
      · simp [same, fail]

theorem isLowSurrogate_of_high {number : Nat} (high : isHighSurrogate number = true) :
    isLowSurrogate number = false := by
  simp only [isLowSurrogate, isHighSurrogate, Bool.and_eq_true, Bool.and_eq_false_iff,
    decide_eq_true_eq, decide_eq_false_iff_not] at high ⊢
  omega

theorem codePoint_eq_ok_iff {text rest : Bytes} {number : Nat} :
    codePoint text = .ok (number, rest) ↔ CodePointText text number rest := by
  constructor
  · intro done
    simp only [codePoint, bind_read_eq_ok, hexQuad_eq_ok_iff] at done
    obtain ⟨first, between, digits, done⟩ := done
    split at done
    · cases done
    · next notLow =>
        split at done
        · next isHigh =>
            simp only [bind_read_eq_ok, pairWith_eq_ok_iff, hexQuad_eq_ok_iff] at done
            obtain ⟨-, _, rfl, -, more, rfl, low, _, second, done⟩ := done
            split at done
            · next isLow =>
                cases done
                exact .pair digits isHigh second isLow
            · cases done
        · next notHigh =>
            cases done
            exact .single digits (Bool.eq_false_iff.2 notLow) (Bool.eq_false_iff.2 notHigh)
  · rintro (⟨digits, notLow, notHigh⟩ | ⟨first, isHigh, second, isLow⟩)
    · rw [codePoint, bind_read (hexQuad_eq_ok_iff.2 digits), notLow, notHigh]
      rfl
    · have partner (byte : UInt8) (rest : Bytes) : pairWith byte (byte :: rest) = .ok ((), rest) :=
        pairWith_eq_ok_iff.2 rfl
      rw [codePoint, bind_read (hexQuad_eq_ok_iff.2 first), isLowSurrogate_of_high isHigh,
        if_neg Bool.false_ne_true, isHigh, if_pos rfl, bind_read (partner 92 _),
        bind_read (partner 117 _), bind_read (hexQuad_eq_ok_iff.2 second), isLow]
      rfl

theorem escape_eq_ok_iff {text rest written : Bytes} :
    escape text = .ok (written, rest) ↔ EscapeText text written rest := by
  constructor
  · intro done
    cases text with
    | nil => cases done
    | cons byte text =>
        rw [escape, next?_bind] at done
        simp only [List.head?_cons, List.tail_cons] at done
        cases known : simpleEscape? byte with
        | some plain =>
            simp only [known] at done
            cases done
            exact .simple known _
        | none =>
            simp only [known] at done
            split at done
            · next isUnicode =>
                subst isUnicode
                simp only [bind_read_eq_ok, codePoint_eq_ok_iff] at done
                obtain ⟨number, between, point, done⟩ := done
                cases done
                exact .unicode point
            · cases done
  · rintro (⟨known, rest⟩ | ⟨point⟩)
    · rw [escape, next?_bind]
      simp only [List.head?_cons, known]
      rfl
    · have letter : simpleEscape? 117 = none := by decide
      rw [escape, next?_bind]
      simp only [List.head?_cons, List.tail_cons, letter, if_true]
      rw [bind_read (codePoint_eq_ok_iff.2 point)]
      rfl

/-! ## Strings -/

inductive ContentsText : Bytes → Bytes → Bytes → Prop where
  | close (rest : Bytes) : ContentsText (quote :: rest) [] rest
  | plain {byte : UInt8} {text bytes rest : Bytes} (literal : Literal byte)
      (more : ContentsText text bytes rest) : ContentsText (byte :: text) (byte :: bytes) rest
  | escaped {text written between bytes rest : Bytes} (front : EscapeText text written between)
      (more : ContentsText between bytes rest) : ContentsText (92 :: text) (written ++ bytes) rest

def StringText (text : Bytes) (found : String) (rest : Bytes) : Prop :=
  ∃ bytes, ContentsText text bytes rest ∧ Utf8.decode? bytes = some found

theorem contents_sound {rounds : Nat} {text bytes rest : Bytes}
    (done : contents rounds text = .ok (bytes, rest)) : ContentsText text bytes rest := by
  induction rounds generalizing text bytes with
  | zero => cases done
  | succ rounds ih =>
      cases text with
      | nil => cases done
      | cons byte text =>
          rw [contents, next?_bind] at done
          simp only [List.head?_cons, List.tail_cons] at done
          split at done
          · next isQuote =>
              subst isQuote
              cases done
              exact .close _
          · next notQuote =>
              split at done
              · next isSlash =>
                  subst isSlash
                  simp only [bind_read_eq_ok, escape_eq_ok_iff] at done
                  obtain ⟨written, between, front, others, _, more, done⟩ := done
                  cases done
                  exact .escaped front (ih more)
              · next notSlash =>
                  split at done
                  · cases done
                  · next solid =>
                      simp only [bind_read_eq_ok] at done
                      obtain ⟨others, _, more, done⟩ := done
                      cases done
                      exact .plain ⟨notQuote, notSlash, solid⟩ (ih more)

theorem EscapeText.length_lt {text written rest : Bytes} (escaped : EscapeText text written rest) :
    rest.length < text.length := by
  rcases escaped with ⟨-, _⟩ | ⟨⟨⟨-, _⟩, -, -⟩ | ⟨⟨-, _⟩, -, ⟨-, _⟩, -⟩⟩ <;>
    simp only [List.length_cons] <;> omega

theorem ContentsText.length_lt {text bytes rest : Bytes} (form : ContentsText text bytes rest) :
    rest.length < text.length := by
  induction form with
  | close rest => exact Nat.lt_succ_self _
  | plain _ _ ih =>
      rw [List.length_cons]
      omega
  | escaped front _ ih =>
      have shorter := front.length_lt
      rw [List.length_cons]
      omega

theorem contents_complete {rounds : Nat} {text bytes rest : Bytes}
    (contained : ContentsText text bytes rest) (enough : text.length ≤ rounds) :
    contents rounds text = .ok (bytes, rest) := by
  induction contained generalizing rounds with
  | close rest =>
      obtain ⟨rounds, rfl⟩ := Nat.exists_eq_add_of_le' enough
      rfl
  | plain literal more ih =>
      obtain ⟨rounds, rfl⟩ := Nat.exists_eq_add_of_le' (Nat.le_trans (Nat.le_add_left 1 _) enough)
      have read := ih (Nat.le_of_succ_le_succ enough)
      obtain ⟨notQuote, notSlash, solid⟩ := literal
      simp only [contents, next?_bind, List.head?_cons, List.tail_cons, notQuote, notSlash, solid,
        if_false]
      rw [bind_read read, pure_read]
  | escaped front more ih =>
      obtain ⟨rounds, rfl⟩ := Nat.exists_eq_add_of_le' (Nat.le_trans (Nat.le_add_left 1 _) enough)
      have shorter := front.length_lt
      have read := ih (Nat.le_trans (Nat.le_of_lt shorter) (Nat.le_of_succ_le_succ enough))
      simp only [contents, next?_bind, List.head?_cons, List.tail_cons,
        show (92 : UInt8) ≠ quote by decide, if_false, if_true]
      rw [bind_read (escape_eq_ok_iff.2 front), bind_read read, pure_read]

theorem quotedText_eq_ok_iff {text rest : Bytes} {found : String} :
    quotedText text = .ok (found, rest) ↔ StringText text found rest := by
  constructor
  · intro done
    simp only [quotedText, rounds_bind, bind_read_eq_ok] at done
    obtain ⟨bytes, between, contained, done⟩ := done
    cases decoded : Utf8.decode? bytes with
    | none =>
        rw [decoded] at done
        cases done
    | some text =>
        rw [decoded] at done
        cases done
        exact ⟨bytes, contents_sound contained, decoded⟩
  · rintro ⟨bytes, contained, decoded⟩
    rw [quotedText, rounds_bind, bind_read (contents_complete contained (Nat.le_succ _)), decoded]
    rfl

end Bearer.Json
