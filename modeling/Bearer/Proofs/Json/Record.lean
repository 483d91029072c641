import Bearer.Json.Record
import Bearer.Proofs.Json.Value

namespace Bearer.Json.Reader

variable {α δ : Type}

/-! ## Values of one kind -/

theorem textOf_read (expected : String) {gap : Bytes} (blank : Blank gap) (text : String)
    (rest : Bytes) :
    textOf expected (gap ++ (Utf8.encodeChars (Value.string text).chars ++ rest)) =
      .ok (text, rest) := by
  rw [Value.chars, encodeChars_stringChars, List.cons_append, textOf,
    peekSolid_bind blank (by decide), if_pos rfl, skipOne_bind, List.tail_cons]
  exact quotedText_read text rest

theorem string_read {gap : Bytes} (blank : Blank gap) (text : String) (rest : Bytes) :
    string (gap ++ (Utf8.encodeChars (Value.string text).chars ++ rest)) = .ok (text, rest) :=
  textOf_read "a string" blank text rest

theorem meaning_read (expected : String) (read : String → Except String α) (text : String)
    {found : α} (means : read text = .ok found) {gap : Bytes} (blank : Blank gap) (rest : Bytes) :
    meaning expected read (gap ++ (Utf8.encodeChars (Value.string text).chars ++ rest)) =
      .ok (found, rest) := by
  rw [meaning, bind_read (textOf_read expected blank text rest), means]
  rfl

theorem nullable_string_read {gap : Bytes} (blank : Blank gap) (text : String) (rest : Bytes) :
    nullable string (gap ++ (Utf8.encodeChars (Value.string text).chars ++ rest)) =
      .ok (some text, rest) := by
  have read := string_read blank_nil text rest
  rw [List.nil_append] at read
  rw [Value.chars, encodeChars_stringChars, List.cons_append] at read ⊢
  rw [nullable, peekSolid_bind blank (by decide), if_neg (by decide), bind_read read, pure_read]

theorem int64_read {held : Int} (least : -2 ^ 63 ≤ held) (most : held < 2 ^ 63) {gap rest : Bytes}
    (blank : Blank gap) (ends : Ends rest) :
    int64 (gap ++ (Utf8.encodeChars (Value.int held).chars ++ rest)) = .ok (held, rest) := by
  have whole : Whole held := ⟨least, by omega⟩
  have small : held < Nat.pow 2 63 := most
  obtain ⟨byte, others, text, starts⟩ := number_head held
  have read := number_read whole ends
  rw [Value.int, Value.chars]
  rw [text, List.cons_append] at read ⊢
  rw [int64, peekSolid_bind blank (startsNumber_cases starts).1]
  simp only [starts, if_true]
  rw [bind_read read]
  simp only [small, if_true, pure_read]

/-! ## Fields -/

theorem once_read (name : String) {read : Reader α} {text rest : Bytes} {found : α}
    (done : read text = .ok (found, rest)) :
    once name none read (colon :: text) = .ok (some found, rest) := by
  rw [once, if_neg (by simp), bind_read (readColon_read text), bind_read done, pure_read]

theorem need_read (name : String) (found : α) (rest : Bytes) :
    need name (some found) rest = .ok (found, rest) := rfl

/-! ## Objects and whole texts -/

theorem object_read (layout : Layout) {member : δ → String → Reader δ} {start done : δ}
    {members : List (String × Value)} (takes : Takes member layout.gap start members done)
    (complete : δ → Reader α) {found : α}
    (completes : ∀ rest, complete done rest = .ok (found, rest)) {trail : Bytes}
    (blank : Blank trail) (rest : Bytes) :
    object member start complete
      (openBrace :: (layout.members members ++ (trail ++ closeBrace :: rest))) =
        .ok (found, rest) := by
  have enough : members.length <
      (layout.members members ++ (trail ++ closeBrace :: rest)).length + 1 := by
    have few := layout.length_members_le members
    simp only [List.length_append]
    omega
  rw [object, skipOne_bind, List.tail_cons, rounds_bind,
    bind_read (foldMembers_read layout takes blank rest enough), bind_read (completes _),
    skipOne_bind, pure_read, List.tail_cons]

theorem record_object (expected : String) (members list : Reader α) (rest : Bytes) :
    record expected members list (openBrace :: rest) = members (openBrace :: rest) := by
  rw [record, peekSolid_bind_cons (by decide), if_pos rfl]

theorem run_read {read : Reader α} {text : Bytes} {found : α} (done : read text = .ok (found, [])) :
    run read text = .ok found := by
  rw [run, done]
  rfl

end Bearer.Json.Reader
