import Bearer.Proofs.Json.Record
import Bearer.Token.Service

namespace Bearer

open Json Json.Reader

namespace Header

def optional (name : String) (field : Option String) : List (String × Value) :=
  (field.map fun text => (name, Value.string text)).toList

theorem takes_alg (draft : Draft) (absent : draft.alg = none) (alg : String) :
    Takes member [] draft [("alg", .string alg)] { draft with alg := some alg } := by
  refine .cons (fun rest _ => ?_) (.nil _)
  rw [member, if_pos rfl, absent, bind_read (once_read "alg" (string_read blank_nil alg rest))]
  rfl

theorem takes_enc (draft : Draft) (absent : draft.enc = none) (enc : Option String) :
    Takes member [] draft (optional "enc" enc) { draft with enc := enc.map some } := by
  cases enc with
  | none =>
      rw [Option.map_none, ← absent]
      exact .nil draft
  | some enc =>
      refine .cons (fun rest _ => ?_) (.nil _)
      rw [member, if_neg (by decide), if_pos rfl, absent,
        bind_read (once_read "enc" (nullable_string_read blank_nil enc rest))]
      rfl

theorem takes_kid (draft : Draft) (absent : draft.kid = none) (kid : Option String) :
    Takes member [] draft (optional "kid" kid) { draft with kid := kid.map some } := by
  cases kid with
  | none =>
      rw [Option.map_none, ← absent]
      exact .nil draft
  | some kid =>
      refine .cons (fun rest _ => ?_) (.nil _)
      rw [member, if_neg (by decide), if_neg (by decide), if_pos rfl, absent,
        bind_read (once_read "kid" (nullable_string_read blank_nil kid rest))]
      rfl

theorem takes_typ (draft : Draft) (absent : draft.typ = none) (typ : String) :
    Takes member [] draft [("typ", .string typ)] { draft with typ := some typ } := by
  refine .cons (fun rest _ => ?_) (.nil _)
  rw [member, if_neg (by decide), if_neg (by decide), if_neg (by decide), if_pos rfl, absent,
    bind_read (once_read "typ" (string_read blank_nil typ rest))]
  rfl

theorem takes_members (header : Header) :
    Takes member [] ⟨none, none, none, none⟩ ([("alg", .string header.alg)] ++
      optional "enc" header.enc ++ optional "kid" header.kid ++ [("typ", .string header.typ)])
      ⟨some header.alg, header.enc.map some, header.kid.map some, some header.typ⟩ :=
  (((takes_alg _ rfl _).append (takes_enc _ rfl _)).append (takes_kid _ rfl _)).append
    (takes_typ _ rfl _)

theorem join_map_some {α : Type} (field : Option α) : (field.map some).join = field := by
  cases field <;> rfl

theorem read_compact (header : Header) : read (Utf8.encode header.toJson.compact) = .ok header := by
  have completes (rest : Bytes) : complete ⟨some header.alg, header.enc.map some,
      header.kid.map some, some header.typ⟩ rest = .ok (header, rest) := by
    rw [complete, bind_read (need_read "alg" header.alg rest), join_map_some, join_map_some]
    rfl
  have reads := object_read Layout.compact (takes_members header) complete completes blank_nil []
  apply run_read
  rw [Value.compact, Utf8.encode_ofList, reader]
  change record _ _ _ (Utf8.encodeChars (Value.object ([("alg", .string header.alg)] ++
      optional "enc" header.enc ++ optional "kid" header.kid ++
        [("typ", .string header.typ)])).chars) = _
  rw [encodeChars_object, record_object]
  exact reads

end Header

namespace Claims

/-- Claims that come back from their text: times of 64 bits, and other members in order, under
names that are not reserved, without floating point numbers and not nested too deep. -/
structure Encodable (claims : Claims) : Prop where
  iat : ∀ second, claims.iat = some second → -2 ^ 63 ≤ second ∧ second < 2 ^ 63
  exp : ∀ second, claims.exp = some second → -2 ^ 63 ≤ second ∧ second < 2 ^ 63
  sorted : claims.extra.Sorted
  unreserved : ∀ other ∈ claims.extra, isReserved other.1 = false
  exact : ∀ other ∈ claims.extra, Exact (maxDepth - 1) other.2

theorem takes_iss (draft : Draft) (absent : draft.iss = none) (iss : Option String) :
    Takes member [] draft (Header.optional "iss" iss) { draft with iss := iss.map some } := by
  cases iss with
  | none =>
      rw [Option.map_none, ← absent]
      exact .nil draft
  | some iss =>
      refine .cons (fun rest _ => ?_) (.nil _)
      rw [member, if_pos rfl, absent,
        bind_read (once_read "iss" (nullable_string_read blank_nil iss rest))]
      rfl

def optionalTime (name : String) (time : Option Int) : List (String × Value) :=
  (time.map fun second => (name, Value.int second)).toList

theorem takes_iat (draft : Draft) (absent : draft.iat = none) {iat : Option Int}
    (fits : ∀ second, iat = some second → -2 ^ 63 ≤ second ∧ second < 2 ^ 63) :
    Takes member [] draft (optionalTime "iat" iat) { draft with iat := iat } := by
  cases iat with
  | none =>
      have same : { draft with iat := none } = draft := by rw [← absent]
      rw [same]
      exact .nil draft
  | some iat =>
      obtain ⟨least, most⟩ := fits iat rfl
      refine .cons (fun rest ends => ?_) (.nil _)
      rw [member, if_neg (by decide), if_pos rfl, absent,
        bind_read (once_read "iat" (int64_read least most blank_nil ends))]
      rfl

theorem takes_exp (draft : Draft) (absent : draft.exp = none) {exp : Option Int}
    (fits : ∀ second, exp = some second → -2 ^ 63 ≤ second ∧ second < 2 ^ 63) :
    Takes member [] draft (optionalTime "exp" exp) { draft with exp := exp } := by
  cases exp with
  | none =>
      have same : { draft with exp := none } = draft := by rw [← absent]
      rw [same]
      exact .nil draft
  | some exp =>
      obtain ⟨least, most⟩ := fits exp rfl
      refine .cons (fun rest ends => ?_) (.nil _)
      rw [member, if_neg (by decide), if_neg (by decide), if_pos rfl, absent,
        bind_read (once_read "exp" (int64_read least most blank_nil ends))]
      rfl

theorem ne_of_unreserved {name : String} (unreserved : isReserved name = false) :
    name ≠ "iss" ∧ name ≠ "iat" ∧ name ≠ "exp" := by
  simpa [isReserved, and_assoc] using unreserved

theorem takes_extra (draft : Draft) {others : Members}
    (sorted : Members.Sorted (draft.extra ++ others))
    (unreserved : ∀ other ∈ others, isReserved other.1 = false)
    (exact : ∀ other ∈ others, Exact (maxDepth - 1) other.2) :
    Takes member [] draft others { draft with extra := draft.extra ++ others } := by
  induction others generalizing draft with
  | nil =>
      rw [List.append_nil]
      exact .nil draft
  | cons other others ih =>
      obtain ⟨name, held⟩ := other
      rw [List.append_cons] at sorted ⊢
      have last := Members.lt_of_sorted_append sorted
      obtain ⟨notIss, notIat, notExp⟩ := ne_of_unreserved (unreserved _ List.mem_cons_self)
      have heldRead := value_read _ held (exact _ List.mem_cons_self)
      refine .cons (fun rest ends => ?_) (ih { draft with extra := draft.extra ++ [(name, held)] }
        sorted (fun other inside => unreserved other (List.mem_cons_of_mem _ inside))
        (fun other inside => exact other (List.mem_cons_of_mem _ inside)))
      rw [member, if_neg notIss, if_neg notIat, if_neg notExp, List.nil_append,
        bind_read (readColon_read _), bind_read (heldRead rest ends), pure_read,
        Members.insert_last held last]

theorem takes_members {claims : Claims} (encodable : claims.Encodable) :
    Takes member [] ⟨none, none, none, []⟩ (claims.typedFields ++ claims.extra)
      ⟨claims.iss.map some, claims.iat, claims.exp, claims.extra⟩ := by
  have iss := takes_iss ⟨none, none, none, []⟩ rfl claims.iss
  have iat := takes_iat ⟨claims.iss.map some, none, none, []⟩ rfl encodable.iat
  have exp := takes_exp ⟨claims.iss.map some, claims.iat, none, []⟩ rfl encodable.exp
  have extra := takes_extra ⟨claims.iss.map some, claims.iat, claims.exp, []⟩ encodable.sorted
    encodable.unreserved encodable.exact
  exact ((iss.append iat).append exp).append extra

theorem read_compact {claims : Claims} (encodable : claims.Encodable) :
    read (Utf8.encode claims.toJson.compact) = .ok claims := by
  have completes (rest : Bytes) : (return ofDraft ⟨claims.iss.map some, claims.iat, claims.exp,
      claims.extra⟩ : Reader Claims) rest = .ok (claims, rest) := by
    rw [pure_read, ofDraft, Header.join_map_some]
  have reads := object_read Layout.compact (takes_members encodable)
    (fun draft => return ofDraft draft) completes blank_nil []
  apply run_read
  rw [Value.compact, Utf8.encode_ofList, reader, toJson, encodeChars_object,
    peekSolid_bind_cons (by decide), if_pos rfl]
  exact reads

theorem encodable_empty : Claims.empty.Encodable where
  iat _ given := by cases given
  exp _ given := by cases given
  sorted := List.Pairwise.nil
  unreserved _ inside := by cases inside
  exact _ inside := by cases inside

theorem Encodable.expiresAt {claims : Claims} (encodable : claims.Encodable) (t : Instant) :
    (claims.expiresAt t).Encodable :=
  { encodable with
    exp := by
      rintro second ⟨⟩
      have least := t.le_second
      have most := t.second_le
      omega }

end Claims

namespace TokenService

theorem encodable_stamp (service : TokenService) {claims : Claims} (encodable : claims.Encodable)
    (now : Instant) : (service.stamp claims now).Encodable where
  iat second stamped := by
    obtain rfl := Option.some.inj stamped
    cases given : claims.iat with
    | some iat => exact encodable.iat iat given
    | none =>
        have least := now.le_second
        have most := now.second_le
        simp only [Option.getD_none]
        omega
  exp := encodable.exp
  sorted := encodable.sorted
  unreserved := encodable.unreserved
  exact := encodable.exact

theorem decodeClaims_stamp (service : TokenService) {claims : Claims}
    (encodable : claims.Encodable) (now : Instant) :
    decodeClaims (encodeClaims (service.stamp claims now)) = .ok (service.stamp claims now) := by
  rw [decodeClaims, encodeClaims, Claims.read_compact (service.encodable_stamp encodable now)]
  rfl

end TokenService

end Bearer
