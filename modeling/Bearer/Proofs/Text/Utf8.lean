import Bearer.Text.Utf8
import Mathlib.Tactic.SplitIfs

namespace Bearer.Utf8

/-! ## One character -/

theorem toNat_byte {value : Nat} (fits : value < 256) : (UInt8.ofNat value).toNat = value :=
  UInt8.toNat_ofNat_of_lt' fits

theorem toNat_lt_scalars (c : Char) : c.toNat < 0x110000 := by
  have valid := c.valid
  simp only [UInt32.isValidChar, Nat.isValidChar] at valid
  change c.val.toNat < _
  omega

theorem scalar?_toNat {c : Char} {least number : Nat} (long : least ≤ c.toNat)
    (equal : number = c.toNat) : scalar? least number = some c := by
  subst equal
  rw [scalar?, if_pos ⟨long, c.valid⟩, Char.ofNat_toNat]

theorem tail?_ofNat {bits : Nat} (small : bits < 64) :
    tail? (UInt8.ofNat (bits + 0x80)) = some bits := by
  have value : (UInt8.ofNat (bits + 0x80)).toNat = bits + 0x80 := toNat_byte (by omega)
  have inside : 0x80 ≤ UInt8.ofNat (bits + 0x80) ∧ UInt8.ofNat (bits + 0x80) < 0xc0 := by
    simp only [UInt8.le_iff_toNat_le, UInt8.lt_iff_toNat_lt, value, UInt8.reduceToNat]
    omega
  rw [tail?, if_pos inside, value, Nat.add_sub_cancel]

theorem twoByteChar?_eq {c : Char} (long : 0x80 ≤ c.toNat) (short : c.toNat ≤ 0x7ff) :
    twoByteChar? (UInt8.ofNat (c.toNat / 64 % 0x20 + 0xc0)) (UInt8.ofNat (c.toNat % 0x40 + 0x80)) =
      some c := by
  rw [twoByteChar?, tail?_ofNat (by omega), toNat_byte (by omega)]
  exact scalar?_toNat long (by omega)

theorem threeByteChar?_eq {c : Char} (long : 0x800 ≤ c.toNat) (short : c.toNat ≤ 0xffff) :
    threeByteChar? (UInt8.ofNat (c.toNat / 4096 % 0x10 + 0xe0))
      (UInt8.ofNat (c.toNat / 64 % 0x40 + 0x80)) (UInt8.ofNat (c.toNat % 0x40 + 0x80)) = some c := by
  rw [threeByteChar?, tail?_ofNat (by omega), tail?_ofNat (by omega), toNat_byte (by omega)]
  exact scalar?_toNat long (by omega)

theorem fourByteChar?_eq {c : Char} (long : 0x10000 ≤ c.toNat) :
    fourByteChar? (UInt8.ofNat (c.toNat / 262144 % 0x08 + 0xf0))
      (UInt8.ofNat (c.toNat / 4096 % 0x40 + 0x80)) (UInt8.ofNat (c.toNat / 64 % 0x40 + 0x80))
      (UInt8.ofNat (c.toNat % 0x40 + 0x80)) = some c := by
  have bound := toNat_lt_scalars c
  rw [fourByteChar?, tail?_ofNat (by omega), tail?_ofNat (by omega), tail?_ofNat (by omega),
    toNat_byte (by omega)]
  exact scalar?_toNat long (by omega)

/-! ## The four forms, told apart by the interval of their first byte -/

theorem decodeChars_one {a : UInt8} (rest : Bytes) (low : a.toNat < 0x80) :
    decodeChars (a :: rest) = (decodeChars rest).map (Char.ofNat a.toNat :: ·) := by
  rw [decodeChars.eq_def]
  exact if_pos low

theorem decodeChars_two {a b : UInt8} {c : Char} (rest : Bytes) (high : 0xc0 ≤ a.toNat)
    (low : a.toNat < 0xe0) (read : twoByteChar? a b = some c) :
    decodeChars (a :: b :: rest) = (decodeChars rest).map (c :: ·) := by
  rw [decodeChars.eq_def]
  simp only [UInt8.lt_iff_toNat_lt, UInt8.reduceToNat, read]
  rw [if_neg (by omega), if_neg (by omega), if_pos low]
  cases decodeChars rest <;> rfl

theorem decodeChars_three {a b d : UInt8} {c : Char} (rest : Bytes) (high : 0xe0 ≤ a.toNat)
    (low : a.toNat < 0xf0) (read : threeByteChar? a b d = some c) :
    decodeChars (a :: b :: d :: rest) = (decodeChars rest).map (c :: ·) := by
  rw [decodeChars.eq_def]
  simp only [UInt8.lt_iff_toNat_lt, UInt8.reduceToNat, read]
  rw [if_neg (by omega), if_neg (by omega), if_neg (by omega), if_pos low]
  cases decodeChars rest <;> rfl

theorem decodeChars_four {a b d e : UInt8} {c : Char} (rest : Bytes) (high : 0xf0 ≤ a.toNat)
    (low : a.toNat < 0xf8) (read : fourByteChar? a b d e = some c) :
    decodeChars (a :: b :: d :: e :: rest) = (decodeChars rest).map (c :: ·) := by
  rw [decodeChars.eq_def]
  simp only [UInt8.lt_iff_toNat_lt, UInt8.reduceToNat, read]
  rw [if_neg (by omega), if_neg (by omega), if_neg (by omega), if_neg (by omega), if_pos low]
  cases decodeChars rest <;> rfl

theorem decodeChars_encodeChar_append (c : Char) (rest : Bytes) :
    decodeChars (String.utf8EncodeChar c ++ rest) = (decodeChars rest).map (c :: ·) := by
  have bound := toNat_lt_scalars c
  unfold String.utf8EncodeChar
  simp only [show c.val.toNat = c.toNat from rfl]
  split_ifs with one two three
  · have value : (UInt8.ofNat c.toNat).toNat = c.toNat := toNat_byte (by omega)
    change decodeChars (UInt8.ofNat c.toNat :: rest) = _
    rw [decodeChars_one rest (by omega), value, Char.ofNat_toNat]
  · exact decodeChars_two rest (by rw [toNat_byte (by omega)]; omega)
      (by rw [toNat_byte (by omega)]; omega) (twoByteChar?_eq (by omega) two)
  · exact decodeChars_three rest (by rw [toNat_byte (by omega)]; omega)
      (by rw [toNat_byte (by omega)]; omega) (threeByteChar?_eq (by omega) three)
  · exact decodeChars_four rest (by rw [toNat_byte (by omega)]; omega)
      (by rw [toNat_byte (by omega)]; omega) (fourByteChar?_eq (by omega))

/-! ## Whole texts -/

@[simp] theorem encodeChars_nil : encodeChars [] = [] := rfl

@[simp] theorem encodeChars_cons (c : Char) (chars : List Char) :
    encodeChars (c :: chars) = String.utf8EncodeChar c ++ encodeChars chars := rfl

@[simp] theorem encodeChars_append (left right : List Char) :
    encodeChars (left ++ right) = encodeChars left ++ encodeChars right := List.flatMap_append

theorem decodeChars_encodeChars (chars : List Char) : decodeChars (encodeChars chars) = some chars := by
  induction chars with
  | nil => rfl
  | cons c chars ih => rw [encodeChars_cons, decodeChars_encodeChar_append, ih, Option.map_some]

theorem decode?_encode (text : String) : decode? (encode text) = some text := by
  rw [decode?, encode, decodeChars_encodeChars, Option.map_some, String.ofList_toList]

theorem encodeChars_injective : Function.Injective encodeChars := by
  intro left right equal
  have read := decodeChars_encodeChars left
  rw [equal, decodeChars_encodeChars] at read
  exact (Option.some.inj read).symm

theorem encode_injective : Function.Injective encode := fun _ _ equal =>
  String.toList_injective (encodeChars_injective equal)

theorem encode_ofList (chars : List Char) : encode (String.ofList chars) = encodeChars chars := by
  rw [encode, String.toList_ofList]

/-! ## Characters of one byte -/

theorem encodeChar_ascii {c : Char} (ascii : c.toNat < 128) :
    String.utf8EncodeChar c = [UInt8.ofNat c.toNat] := by
  unfold String.utf8EncodeChar
  exact if_pos (Nat.le_of_lt_succ ascii)

theorem encodeChars_ascii {chars : List Char} (ascii : ∀ c ∈ chars, c.toNat < 128) :
    encodeChars chars = chars.map fun c => UInt8.ofNat c.toNat := by
  induction chars with
  | nil => rfl
  | cons c chars ih =>
      rw [encodeChars_cons, encodeChar_ascii (ascii c (by simp)),
        ih fun other member => ascii other (by simp [member])]
      rfl

theorem le_of_mem_encodeChar {c : Char} (wide : 128 ≤ c.toNat) {byte : UInt8}
    (member : byte ∈ String.utf8EncodeChar c) : 128 ≤ byte.toNat := by
  have bound := toNat_lt_scalars c
  unfold String.utf8EncodeChar at member
  simp only [show c.val.toNat = c.toNat from rfl] at member
  split_ifs at member with one two three
  · omega
  all_goals
    simp only [List.mem_cons, List.not_mem_nil, or_false] at member
  · rcases member with rfl | rfl <;> rw [toNat_byte (by omega)] <;> omega
  · rcases member with rfl | rfl | rfl <;> rw [toNat_byte (by omega)] <;> omega
  · rcases member with rfl | rfl | rfl | rfl <;> rw [toNat_byte (by omega)] <;> omega

/-! ## The order of texts -/

theorem ofNat_cons_lt_iff {a b : Nat} (fits : a < 256) (fits' : b < 256) {left right : Bytes} :
    UInt8.ofNat a :: left < UInt8.ofNat b :: right ↔ a < b ∨ a = b ∧ left < right := by
  rw [List.cons_lt_cons_iff, UInt8.lt_iff_toNat_lt, ← UInt8.toNat_inj, toNat_byte fits,
    toNat_byte fits']

theorem encodeChar_append_lt {c d : Char} (less : c < d) (left right : Bytes) :
    String.utf8EncodeChar c ++ left < String.utf8EncodeChar d ++ right := by
  have bound := toNat_lt_scalars c
  have bound' := toNat_lt_scalars d
  have smaller : c.toNat < d.toNat := less
  -- The bytes of a long form are digits to the base 64.
  have digits (n : Nat) (small : n < 0x110000) : n / 4096 = n / 64 / 64 ∧
      n / 262144 = n / 4096 / 64 ∧ n / 262144 % 0x08 = n / 262144 := by omega
  have first := digits c.toNat bound
  have second := digits d.toNat bound'
  unfold String.utf8EncodeChar
  simp only [show c.val.toNat = c.toNat from rfl, show d.val.toNat = d.toNat from rfl]
  split_ifs <;>
    simp (disch := omega) only [List.cons_append, List.nil_append, ofNat_cons_lt_iff] <;> omega

theorem encodeChars_lt {left right : List Char} (less : left < right) :
    encodeChars left < encodeChars right := by
  induction less with
  | @nil c chars =>
      obtain ⟨byte, rest, bytes⟩ := List.exists_cons_of_ne_nil (@String.utf8EncodeChar_ne_nil c)
      rw [encodeChars_cons, bytes]
      exact List.nil_lt_cons _ _
  | rel less => exact encodeChar_append_lt less _ _
  | cons _ ih => exact List.append_left_lt ih

theorem encode_lt {left right : String} (less : left < right) : encode left < encode right :=
  encodeChars_lt (String.lt_iff.1 less)

end Bearer.Utf8
