import Bearer.Uuid

namespace Bearer

namespace Hex

theorem value?_digit : ∀ value < 16, value? (digit value) = some value := by decide

theorem digit_ne : ∀ value < 16, digit value ≠ '-' ∧ digit value ≠ '\x7b' ∧
    (digit value).toLower ≠ 'u' := by
  decide

theorem decodeChars_encodeByte (bytes : Bytes) :
    decodeChars (bytes.flatMap encodeByte) = some bytes := by
  induction bytes with
  | nil => rfl
  | cons byte bytes ih =>
      have small := byte.toNat_lt
      have whole : UInt8.ofNat (byte.toNat / 16 * 16 + byte.toNat % 16) = byte := by
        rw [Nat.div_add_mod', UInt8.ofNat_toNat]
      simp only [List.flatMap_cons, encodeByte, List.cons_append, List.nil_append, decodeChars,
        value?_digit (byte.toNat / 16) (by omega), value?_digit (byte.toNat % 16) (by omega), ih]
      exact congrArg (fun first => some (first :: bytes)) whole

end Hex

namespace Uuid

theorem hyphen_notMem (bytes : Bytes) : '-' ∉ hexChars bytes := by
  intro member
  obtain ⟨byte, -, digit⟩ := List.mem_flatMap.1 member
  have small := byte.toNat_lt
  simp only [Hex.encodeByte, List.mem_cons, List.not_mem_nil, or_false] at digit
  rcases digit with high | low
  · exact (Hex.digit_ne (byte.toNat / 16) (by omega)).1 high.symm
  · exact (Hex.digit_ne (byte.toNat % 16) (by omega)).1 low.symm

theorem length_hexChars (bytes : Bytes) : (hexChars bytes).length = 2 * bytes.length := by
  induction bytes with
  | nil => rfl
  | cons byte bytes ih =>
      simp only [hexChars, List.flatMap_cons, Hex.encodeByte, List.length_append, List.length_cons,
        List.length_nil] at ih ⊢
      omega

theorem groups_chars (id : Uuid) : groups id.chars =
    [hexChars (id.bytes.take 4), hexChars ((id.bytes.drop 4).take 2),
      hexChars ((id.bytes.drop 6).take 2), hexChars ((id.bytes.drop 8).take 2),
      hexChars (id.bytes.drop 10)] := by
  simp only [groups, chars, List.append_assoc, List.cons_append]
  rw [List.splitOn_append_cons_self_of_not_mem (hyphen_notMem _),
    List.splitOn_append_cons_self_of_not_mem (hyphen_notMem _),
    List.splitOn_append_cons_self_of_not_mem (hyphen_notMem _),
    List.splitOn_append_cons_self_of_not_mem (hyphen_notMem _),
    List.splitOn_eq_singleton (hyphen_notMem _)]

theorem flatten_groups (id : Uuid) : (groups id.chars).flatten = hexChars id.bytes := by
  have parts : id.bytes.take 4 ++ ((id.bytes.drop 4).take 2 ++ ((id.bytes.drop 6).take 2 ++
      ((id.bytes.drop 8).take 2 ++ id.bytes.drop 10))) = id.bytes := by
    have rest (count : Nat) : (id.bytes.drop count).take 2 ++ id.bytes.drop (count + 2) =
        id.bytes.drop count := by
      rw [← List.drop_drop, List.take_append_drop]
    rw [rest 8, rest 6, rest 4, List.take_append_drop]
  rw [groups_chars]
  simp only [hexChars, List.flatten_cons, List.flatten_nil, List.append_nil,
    ← List.flatMap_append, parts]

theorem lengths_groups (id : Uuid) : (groups id.chars).map List.length = groupLengths := by
  have length := id.length_eq
  rw [groups_chars]
  simp only [List.map_cons, List.map_nil, length_hexChars, List.length_take, List.length_drop,
    length]
  rfl

theorem frame_chars (id : Uuid) : frame id.chars = ⟨id.chars, 0, true⟩ := by
  obtain ⟨bytes, length⟩ := id
  cases bytes with
  | nil => cases length
  | cons byte bytes =>
      have small := byte.toNat_lt
      obtain ⟨-, noBrace, noUrn⟩ := Hex.digit_ne (byte.toNat / 16) (by omega)
      obtain ⟨rest, text⟩ : ∃ rest, chars ⟨byte :: bytes, length⟩ =
          Hex.digit (byte.toNat / 16) :: rest := ⟨_, rfl⟩
      rw [text, frame, if_neg, if_neg]
      · intro named
        have first := congrArg List.head? named
        exact noUrn (Option.some.inj first)
      · rintro ⟨brace, -⟩
        exact noBrace (by simpa using brace)

theorem read_text (id : Uuid) : read id.text = .ok id := by
  have grouped : grouped? id.chars = some id := by
    simp only [grouped?, lengths_groups, if_true, flatten_groups]
    rw [hexChars, Hex.decodeChars_encodeByte, Option.bind_some, ofBytes?, dif_pos id.length_eq]
  have found : read? id.text.toList = some id := by
    rw [text, String.toList_ofList, read?, frame_chars, grouped, Option.some_or]
  rw [read, found]

theorem text_injective : Function.Injective text := by
  intro left right equal
  have read := read_text left
  rw [equal, read_text] at read
  exact (Except.ok.inj read).symm

end Uuid

end Bearer
