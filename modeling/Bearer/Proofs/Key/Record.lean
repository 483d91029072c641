import Bearer.Key.Record
import Bearer.Proofs.Json.Record
import Bearer.Proofs.Time.Rfc3339
import Bearer.Proofs.Uuid

namespace Bearer.KeyRecord

open Json Json.Reader

def lines : Layout where
  lead := [10, 32, 32]
  gap := [32]
  blank_lead := List.all_eq_true.1 rfl
  blank_gap := List.all_eq_true.1 rfl

theorem blank_lineEnd : Blank [10] := List.all_eq_true.1 rfl

theorem encode_text (record : KeyRecord) : Utf8.encode record.text =
    openBrace :: (lines.members [("id", .string record.id.text), ("key", .string record.sealed),
      ("expires_at", .string record.expiresAt.rfc3339)] ++ ([10] ++ [closeBrace])) := by
  have firstLine : Utf8.encodeChars (newLine 1) = [10, 32, 32] := by decide
  have lastLine : Utf8.encodeChars (newLine 0) = [10] := by decide
  have blank : String.utf8EncodeChar ' ' = [32] := by decide
  rw [text, Value.pretty, Utf8.encode_ofList]
  simp only [toJson, Value.prettyChars, membersPretty, List.cons_append, List.append_assoc,
    List.nil_append, Utf8.encodeChars_cons, Utf8.encodeChars_append, Utf8.encodeChars_nil,
    encodeChars_stringChars, encodeChar_openBrace, encodeChar_closeBrace, encodeChar_colon,
    encodeChar_comma, blank, firstLine, lastLine, Layout.members, Layout.following, Layout.member,
    lines, Value.chars]

theorem readId_read (id : Uuid) (rest : Bytes) :
    readId (lines.gap ++ (Utf8.encodeChars (Value.string id.text).chars ++ rest)) =
      .ok (id, rest) := by
  refine meaning_read _ _ id.text ?_ lines.blank_gap rest
  rw [Uuid.read_text]
  rfl

theorem readInstant_read (t : Instant) (rest : Bytes) :
    readInstant (lines.gap ++ (Utf8.encodeChars (Value.string t.rfc3339).chars ++ rest)) =
      .ok (t, rest) := by
  refine meaning_read _ _ t.rfc3339 ?_ lines.blank_gap rest
  rw [Instant.read_rfc3339]
  rfl

theorem takes_id (draft : Draft) (absent : draft.id = none) (id : Uuid) :
    Takes member lines.gap draft [("id", .string id.text)] { draft with id := some id } := by
  refine .cons (fun rest _ => ?_) (.nil _)
  rw [member, if_pos rfl, absent, bind_read (once_read "id" (readId_read id rest))]
  rfl

theorem takes_sealed (draft : Draft) (absent : draft.sealed = none) (sealed : String) :
    Takes member lines.gap draft [("key", .string sealed)]
      { draft with sealed := some sealed } := by
  refine .cons (fun rest _ => ?_) (.nil _)
  rw [member, if_neg (by decide), if_pos rfl, absent,
    bind_read (once_read "key" (string_read lines.blank_gap sealed rest))]
  rfl

theorem takes_expiresAt (draft : Draft) (absent : draft.expiresAt = none) (t : Instant) :
    Takes member lines.gap draft [("expires_at", .string t.rfc3339)]
      { draft with expiresAt := some t } := by
  refine .cons (fun rest _ => ?_) (.nil _)
  rw [member, if_neg (by decide), if_neg (by decide), if_pos rfl, absent,
    bind_read (once_read "expires_at" (readInstant_read t rest))]
  rfl

theorem takes_members (record : KeyRecord) : Takes member lines.gap ⟨none, none, none⟩
    [("id", .string record.id.text), ("key", .string record.sealed),
      ("expires_at", .string record.expiresAt.rfc3339)]
    ⟨some record.id, some record.sealed, some record.expiresAt⟩ :=
  ((takes_id _ rfl _).append (takes_sealed _ rfl _)).append (takes_expiresAt _ rfl _)

theorem read_text (record : KeyRecord) : read (Utf8.encode record.text) = .ok record := by
  have completes (rest : Bytes) : complete ⟨some record.id, some record.sealed,
      some record.expiresAt⟩ rest = .ok (record, rest) := rfl
  have reads := object_read lines (takes_members record) complete completes blank_lineEnd []
  apply run_read
  rw [encode_text, reader, record_object]
  exact reads

end Bearer.KeyRecord
