import Bearer.Proofs.Json.Grammar.Distinct
import Bearer.Proofs.Token.Claims
import Bearer.Proofs.Token.Codec
/-!
# Claims and their texts

* `Claims.Describes`: the claims that the members of an object make. A text is read as claims exactly
  when it is an object whose members make them (`decodeClaims_eq_ok_iff`), and some claims are read
  exactly when the members fit (`Claims.Fits`).
* `Claims.Built`: claims that are read or built. None of the other claims has a reserved name.
* `Claims.Canonical`: the text that is written for claims has no duplicate names, lists its members in
  a fixed order and is read back.
-/

namespace Bearer

open Json Json.Reader TokenService

namespace Claims

/-! ## What members make of claims -/

structure Fits (members : List (String × Value)) : Prop where
  iss : (valuesOf "iss" members).length ≤ 1 ∧
    ∀ held ∈ valuesOf "iss" members, held = .null ∨ ∃ text, held = .string text
  iat : (valuesOf "iat" members).length ≤ 1 ∧
    ∀ held ∈ valuesOf "iat" members, ∃ second, IsInt64 held second
  exp : (valuesOf "exp" members).length ≤ 1 ∧
    ∀ held ∈ valuesOf "exp" members, ∃ second, IsInt64 held second

/-- The claims that members make: of several other claims with one name the last counts. -/
structure Describes (members : List (String × Value)) (claims : Claims) : Prop where
  iss : ∃ given, FilledBy Nullable none (valuesOf "iss" members) given ∧ claims.iss = given.join
  iat : FilledBy IsInt64 none (valuesOf "iat" members) claims.iat
  exp : FilledBy IsInt64 none (valuesOf "exp" members) claims.exp
  sorted : claims.extra.Sorted
  extra (name : String) : claims.get? name =
    if isReserved name then none else (valuesOf name members).getLast?

def others (members : List (String × Value)) : List (String × Value) :=
  members.filter fun member => !isReserved member.1

theorem others_cons_reserved {name : String} (reserved : isReserved name = true) (held : Value)
    (members : List (String × Value)) : others ((name, held) :: members) = others members := by
  simp [others, reserved]

theorem others_cons_other {name : String} (other : isReserved name = false) (held : Value)
    (members : List (String × Value)) :
    others ((name, held) :: members) = (name, held) :: others members := by
  simp [others, other]

theorem valuesOf_others (name : String) (members : List (String × Value)) :
    valuesOf name (others members) = if isReserved name then [] else valuesOf name members := by
  induction members with
  | nil => simp [valuesOf, others]
  | cons member members ih =>
      obtain ⟨other, held⟩ := member
      cases reserved : isReserved other with
      | true =>
          rw [others_cons_reserved reserved, ih]
          by_cases same : other = name
          · subst same
            rw [if_pos reserved, if_pos reserved]
          · rw [valuesOf_cons_other same]
      | false =>
          rw [others_cons_other reserved]
          by_cases same : other = name
          · subst same
            rw [valuesOf_cons_self, ih, valuesOf_cons_self, reserved]
            rfl
          · rw [valuesOf_cons_other same, valuesOf_cons_other same, ih]

theorem extra_of_steps {before after : Draft} {members : List (String × Value)}
    (steps : Steps Step before members after) : after.extra =
      (others members).foldl (fun sorted member => sorted.insert member.1 member.2) before.extra := by
  induction steps with
  | nil state => rfl
  | cons here _ ih =>
      rw [ih]
      rcases step_cases here with
        ⟨rfl, -, _, -, rfl⟩ | ⟨rfl, -, _, -, rfl⟩ | ⟨rfl, -, _, -, rfl⟩ | ⟨other, rfl⟩
      · rw [others_cons_reserved (by decide)]
      · rw [others_cons_reserved (by decide)]
      · rw [others_cons_reserved (by decide)]
      · rw [others_cons_other other, List.foldl_cons]

theorem steps_of_filled {before after : Draft} {members : List (String × Value)}
    (iss : FilledBy Nullable before.iss (valuesOf "iss" members) after.iss)
    (iat : FilledBy IsInt64 before.iat (valuesOf "iat" members) after.iat)
    (exp : FilledBy IsInt64 before.exp (valuesOf "exp" members) after.exp)
    (extra : after.extra = (others members).foldl
      (fun sorted member => sorted.insert member.1 member.2) before.extra) :
    Steps Step before members after := by
  induction members generalizing before with
  | nil =>
      have same : after = before := by
        obtain ⟨_, _, _, _⟩ := after
        cases iss
        cases iat
        cases exp
        cases extra
        rfl
      rw [same]
      exact .nil before
  | cons member members ih =>
      obtain ⟨name, held⟩ := member
      -- A member fills the field that it names, which is empty so far, or joins the others.
      by_cases isIss : name = "iss"
      · subst isIss
        obtain ⟨issuer, empty, isName, filled⟩ := FilledBy.of_cons iss
        exact .cons ⟨empty, issuer, isName, rfl⟩ (ih filled iat exp extra)
      · by_cases isIat : name = "iat"
        · subst isIat
          obtain ⟨second, empty, isTime, filled⟩ := FilledBy.of_cons iat
          exact .cons ⟨empty, second, isTime, rfl⟩ (ih iss filled exp extra)
        · by_cases isExp : name = "exp"
          · subst isExp
            obtain ⟨second, empty, isTime, filled⟩ := FilledBy.of_cons exp
            exact .cons ⟨empty, second, isTime, rfl⟩ (ih iss iat filled extra)
          · have unreserved : isReserved name = false := by simp [isReserved, isIss, isIat, isExp]
            rw [valuesOf_cons_other isIss] at iss
            rw [valuesOf_cons_other isIat] at iat
            rw [valuesOf_cons_other isExp] at exp
            rw [others_cons_other unreserved] at extra
            have here : Step before name held
                { before with extra := before.extra.insert name held } := by
              rw [Step, if_neg isIss, if_neg isIat, if_neg isExp]
            exact .cons here (ih iss iat exp extra)

/-! ## What is read -/

theorem get?_ofList_others (members : List (String × Value)) (name : String) :
    (Members.ofList (others members)).get? name =
      if isReserved name then none else (valuesOf name members).getLast? := by
  rw [Members.get?_ofList, valuesOf_others]
  split <;> rfl

theorem decodeClaims_eq_ok_iff {text : Bytes} {claims : Claims} :
    decodeClaims text = .ok claims ↔ ∃ members, ObjectText text members ∧ Describes members claims := by
  rw [decodeClaims, mapError_eq_ok, read_eq_ok_iff]
  constructor
  · rintro ⟨members, draft, form, steps, rfl⟩
    have extra : draft.extra = Members.ofList (others members) := extra_of_steps steps
    refine ⟨members, form, ⟨draft.iss, fillsOnce_iss.filled steps, rfl⟩, fillsOnce_iat.filled steps,
      fillsOnce_exp.filled steps, ?_, fun name => ?_⟩
    · rw [ofDraft, extra]
      exact Members.sorted_ofList _
    · rw [get?, ofDraft, extra, get?_ofList_others]
  · rintro ⟨members, form, ⟨given, iss, isIss⟩, iat, exp, sorted, extra⟩
    have same : claims.extra = Members.ofList (others members) :=
      sorted.ext (Members.sorted_ofList _) fun name => by
        rw [get?_ofList_others]
        exact extra name
    exact ⟨members, ⟨given, claims.iat, claims.exp, claims.extra⟩, form,
      steps_of_filled iss iat exp same, by rw [ofDraft, ← isIss]⟩

theorem exists_nullable_iff {held : Value} :
    (∃ found, Nullable held found) ↔ held = .null ∨ ∃ text, held = .string text := by
  constructor
  · rintro ⟨_, _ | text⟩
    · exact .inl rfl
    · exact .inr ⟨text, rfl⟩
  · rintro (rfl | ⟨text, rfl⟩)
    · exact ⟨none, .null⟩
    · exact ⟨some text, .string text⟩

theorem exists_describes_iff {members : List (String × Value)} :
    (∃ claims, Describes members claims) ↔ Fits members := by
  constructor
  · rintro ⟨claims, ⟨given, iss, -⟩, iat, exp, -, -⟩
    obtain ⟨few, good⟩ := exists_filledBy_iff.1 ⟨given, iss⟩
    exact ⟨⟨few, fun held inside => exists_nullable_iff.1 (good held inside)⟩,
      exists_filledBy_iff.1 ⟨claims.iat, iat⟩, exists_filledBy_iff.1 ⟨claims.exp, exp⟩⟩
  · rintro ⟨⟨few, good⟩, iat, exp⟩
    obtain ⟨given, iss⟩ := exists_filledBy_iff.2
      ⟨few, fun held inside => exists_nullable_iff.2 (good held inside)⟩
    obtain ⟨iat, isIat⟩ := exists_filledBy_iff.2 iat
    obtain ⟨exp, isExp⟩ := exists_filledBy_iff.2 exp
    exact ⟨⟨given.join, iat, exp, Members.ofList (others members)⟩, ⟨given, iss, rfl⟩, isIat, isExp,
      Members.sorted_ofList _, get?_ofList_others members⟩

theorem exists_decodeClaims_iff {text : Bytes} :
    (∃ claims, decodeClaims text = .ok claims) ↔
      ∃ members, ObjectText text members ∧ Fits members := by
  simp only [decodeClaims_eq_ok_iff, ← exists_describes_iff]
  constructor
  · rintro ⟨claims, members, form, describes⟩
    exact ⟨members, form, claims, describes⟩
  · rintro ⟨members, form, claims, describes⟩
    exact ⟨claims, members, form, describes⟩

/-! ## What is built -/

structure Tidy (claims : Claims) : Prop where
  sorted : claims.extra.Sorted
  unreserved : ∀ other ∈ claims.extra, isReserved other.1 = false

inductive Built : Claims → Prop where
  | new : Built Claims.empty
  | decoded {text : Bytes} {claims : Claims} (done : decodeClaims text = .ok claims) : Built claims
  | inserted {claims : Claims} (built : Built claims) (name : String) (held : Value) :
      Built (claims.insert name held)
  | subject {claims : Claims} (built : Built claims) (name : String) : Built (claims.subject name)
  | expiresAt {claims : Claims} (built : Built claims) (t : Instant) : Built (claims.expiresAt t)
  | expiresIn {claims after : Claims} (built : Built claims) {now : Instant} {lifetime : Span}
      (done : claims.expiresIn now lifetime = .ok after) : Built after

theorem Describes.mem_extra_iff {members : List (String × Value)} {claims : Claims}
    (describes : Describes members claims) {name : String} {held : Value} :
    (name, held) ∈ claims.extra ↔
      isReserved name = false ∧ (valuesOf name members).getLast? = some held := by
  rw [← describes.sorted.get?_eq_some_iff, ← Claims.get?, describes.extra]
  cases isReserved name <;> simp

theorem Describes.tidy {members : List (String × Value)} {claims : Claims}
    (describes : Describes members claims) : claims.Tidy where
  sorted := describes.sorted
  unreserved _ inside := (describes.mem_extra_iff.1 inside).1

theorem tidy_empty : Claims.empty.Tidy where
  sorted := List.Pairwise.nil
  unreserved _ inside := by cases inside

theorem Tidy.insert {claims : Claims} (tidy : claims.Tidy) (name : String) (held : Value) :
    (claims.insert name held).Tidy := by
  rw [Claims.insert]
  split
  · exact tidy
  · next unreserved =>
      refine ⟨tidy.sorted.insert name held, fun other inside => ?_⟩
      rcases Members.mem_insert inside with rfl | inside
      · exact Bool.eq_false_iff.2 unreserved
      · exact tidy.unreserved other inside

theorem Tidy.expiresAt {claims : Claims} (tidy : claims.Tidy) (t : Instant) :
    (claims.expiresAt t).Tidy := ⟨tidy.sorted, tidy.unreserved⟩

theorem Tidy.expiresIn {claims after : Claims} (tidy : claims.Tidy) {now : Instant} {lifetime : Span}
    (done : claims.expiresIn now lifetime = .ok after) : after.Tidy := by
  rw [Claims.expiresIn] at done
  split at done
  · cases done
    exact tidy.expiresAt _
  · cases done

theorem Built.tidy {claims : Claims} (built : Built claims) : claims.Tidy := by
  induction built with
  | new => exact tidy_empty
  | decoded done =>
      obtain ⟨_, -, describes⟩ := decodeClaims_eq_ok_iff.1 done
      exact describes.tidy
  | inserted _ name held ih => exact ih.insert name held
  | subject _ name ih => exact ih.insert "sub" (.string name)
  | expiresAt _ t ih => exact ih.expiresAt t
  | expiresIn _ done ih => exact ih.expiresIn done

/-! ## What is written -/

/-- The text of the claims has no duplicate names, lists the fields first and the other claims in the
order of the bytes of their names, and is read back. -/
structure Canonical (claims : Claims) : Prop where
  distinct : DistinctObject (encodeClaims claims) (claims.typedFields ++ claims.extra)
  fields : (claims.typedFields.map Prod.fst).Sublist ["iss", "iat", "exp"]
  ordered : claims.extra.Pairwise fun left right => Utf8.encode left.1 < Utf8.encode right.1
  back : decodeClaims (encodeClaims claims) = .ok claims

theorem names_typedFields (claims : Claims) :
    (claims.typedFields.map Prod.fst).Sublist ["iss", "iat", "exp"] := by
  obtain ⟨iss, iat, exp, extra⟩ := claims
  cases iss <;> cases iat <;> cases exp <;> simp [typedFields]

theorem isReserved_of_mem_typedFields {claims : Claims} {member : String × Value}
    (inside : member ∈ claims.typedFields) : isReserved member.1 = true := by
  have named := (names_typedFields claims).subset (List.mem_map_of_mem inside)
  simpa [isReserved, or_assoc] using named

theorem apart_members {claims : Claims} (tidy : claims.Tidy) :
    Apart (claims.typedFields ++ claims.extra) := by
  rw [Apart, List.map_append, List.nodup_append]
  refine ⟨(names_typedFields claims).nodup (by decide), tidy.sorted.names_nodup, ?_⟩
  intro name typed other inside same
  obtain ⟨field, isField, rfl⟩ := List.mem_map.1 typed
  obtain ⟨member, isOther, rfl⟩ := List.mem_map.1 inside
  have reserved := isReserved_of_mem_typedFields isField
  rw [same, tidy.unreserved member isOther] at reserved
  cases reserved

theorem Encodable.tidy {claims : Claims} (encodable : claims.Encodable) : claims.Tidy :=
  ⟨encodable.sorted, encodable.unreserved⟩

theorem exact_int {second : Int} (least : -2 ^ 63 ≤ second) (most : second < 2 ^ 63) (depth : Nat) :
    Exact depth (.int second) := by
  have whole : Whole second := ⟨least, by omega⟩
  cases depth <;> exact whole

theorem exact_typedFields {claims : Claims} (encodable : claims.Encodable) {depth : Nat} :
    ∀ member ∈ claims.typedFields, Exact depth member.2 := by
  intro member inside
  simp only [typedFields, List.mem_append, Option.mem_toList, Option.map_eq_some_iff] at inside
  rcases inside with (⟨iss, -, rfl⟩ | ⟨iat, given, rfl⟩) | ⟨exp, given, rfl⟩
  · cases depth <;> trivial
  · obtain ⟨least, most⟩ := encodable.iat iat given
    exact exact_int least most depth
  · obtain ⟨least, most⟩ := encodable.exp exp given
    exact exact_int least most depth

theorem Encodable.canonical {claims : Claims} (encodable : claims.Encodable) : claims.Canonical where
  distinct := by
    refine distinctObject_compact (apart_members encodable.tidy) fun member inside => ?_
    exact (List.mem_append.1 inside).elim (exact_typedFields encodable member)
      (encodable.exact member)
  fields := names_typedFields claims
  ordered := encodable.sorted.imp Utf8.encode_lt
  back := by
    rw [decodeClaims, encodeClaims, read_compact encodable]
    rfl

/-! ## Read and written again -/

def Floatless (claims : Claims) : Prop := ∀ other ∈ claims.extra, Json.Floatless other.2

def recode (text : Bytes) : Except Error Bytes := (decodeClaims text).map encodeClaims

theorem int64_of_filledBy {values : List Value} {second : Int}
    (filled : FilledBy IsInt64 none values (some second)) : -2 ^ 63 ≤ second ∧ second < 2 ^ 63 := by
  cases filled with
  | once _ isTime => exact isTime.2

theorem encodable_of_decoded {text : Bytes} {claims : Claims}
    (done : decodeClaims text = .ok claims) (floatless : claims.Floatless) : claims.Encodable := by
  obtain ⟨members, form, describes⟩ := decodeClaims_eq_ok_iff.1 done
  have tidy := describes.tidy
  refine ⟨fun second given => ?_, fun second given => ?_, tidy.sorted, tidy.unreserved,
    fun other inside => ?_⟩
  · exact int64_of_filledBy (given ▸ describes.iat)
  · exact int64_of_filledBy (given ▸ describes.exp)
  · obtain ⟨name, held⟩ := other
    have last := (describes.mem_extra_iff.1 inside).2
    have given := mem_valuesOf.1 (List.mem_of_getLast? last)
    obtain ⟨_, form, _⟩ := form
    obtain ⟨_, _, valued⟩ := form.value_of_mem given
    exact valued.exact (floatless _ inside)

theorem recode_written {claims : Claims} (encodable : claims.Encodable) :
    recode (encodeClaims claims) = .ok (encodeClaims claims) := by
  rw [recode, encodable.canonical.back]
  rfl

/-! ## The codec -/

/-- The texts that are read as claims, and what they mean; the claims that are read or built; and the
texts that are written, which are read back. Without floating point numbers, a text that has been
written once more stays as it is. -/
theorem codec_exact :
    (∀ text, (∃ claims, decodeClaims text = .ok claims) ↔
      ∃ members, ObjectText text members ∧ Fits members) ∧
    (∀ text claims, decodeClaims text = .ok claims ↔
      ∃ members, ObjectText text members ∧ Describes members claims) ∧
    (∀ depth text held rest, ValueText depth text held rest → ∀ second, IsInt64 held second ↔
      text = Utf8.encode (toString second) ++ rest ∧ -2 ^ 63 ≤ second ∧ second < 2 ^ 63) ∧
    (∀ claims : Claims, claims.Built → claims.Tidy) ∧
    (∀ claims : Claims, claims.Encodable → claims.Canonical) ∧
    (∀ text (claims : Claims), decodeClaims text = .ok claims → claims.Floatless →
      ∃ written, recode text = .ok written ∧ recode written = .ok written) := by
  refine ⟨fun text => exists_decodeClaims_iff, fun text claims => decodeClaims_eq_ok_iff,
    fun depth text held rest form second => isInt64_iff_literal form, fun claims built => built.tidy,
    fun claims encodable => encodable.canonical, fun text claims done floatless => ?_⟩
  refine ⟨encodeClaims claims, ?_, recode_written (encodable_of_decoded done floatless)⟩
  rw [recode, done]
  rfl

theorem lastSubject_exact :
    let members := [("sub", Value.string "a"), ("exp", .int (-86400)), ("sub", .string "b")]
    let text := Utf8.encode (Value.object members).compact
    let claims : Claims := ⟨none, none, some (-86400), [("sub", .string "b")]⟩
    ObjectText text members ∧ Fits members ∧ decodeClaims text = .ok claims ∧ claims.Floatless ∧
      claims.Tidy ∧ claims.Encodable ∧ claims.Canonical ∧
        ∃ written, recode text = .ok written ∧ recode written = .ok written := by
  intro members text claims
  obtain ⟨fits, means, -, built, written, again⟩ := codec_exact
  have form : ObjectText text members := by
    apply objectText_compact
    simp [members, Exact, Value.int, Whole, maxDepth]
  have done : decodeClaims text = .ok claims := by
    refine (means text claims).2 ⟨members, form, ⟨none, .kept, rfl⟩, .kept, ?_, ?_, ?_⟩
    · exact .once rfl ⟨rfl, by decide, by decide⟩
    · exact List.pairwise_singleton _ _
    · exact get?_ofList_others members
  have floatless : claims.Floatless := by
    intro other inside
    rw [List.mem_singleton.1 inside]
    exact .string "b"
  obtain ⟨_, form', fit⟩ := (fits text).1 ⟨claims, done⟩
  rw [← form.unique form'] at fit
  have encodable := encodable_of_decoded done floatless
  exact ⟨form, fit, done, floatless, built claims (.decoded done), encodable,
    written claims encodable, again text claims done floatless⟩

end Claims

end Bearer
