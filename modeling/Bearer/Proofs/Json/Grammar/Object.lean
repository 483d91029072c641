import Bearer.Json.Record
import Bearer.Proofs.Json.Grammar.Value
import Mathlib.Data.List.TakeWhile

namespace Bearer.Json

open Reader

inductive ObjectText (text : Bytes) (members : List (String × Value)) : Prop where
  | intro {behind rest : Bytes} (spaced : Spaced text (openBrace :: behind))
      (form : Elements closeBrace (MemberText (ValueText (maxDepth - 1))) true behind members rest)
      (blank : Blank rest)

/-! ## Values of one kind -/

section Kinds

variable {depth : Nat} {text rest : Bytes}

theorem PlainText.valueText {held : Value} (form : PlainText text held rest) (depth : Nat) :
    ValueText depth text held rest := by
  cases depth with
  | zero => exact form
  | succ depth => exact .plain form

theorem ValueText.kinds {held : Value} (form : ValueText depth text held rest) :
    PlainText text held rest ∨ (∃ items, held = .array items) ∨
      ∃ members, held = .object members := by
  cases depth with
  | zero => exact .inl form
  | succ depth =>
      cases form with
      | plain form => exact .inl form
      | array form => exact .inr (.inl ⟨_, rfl⟩)
      | object form => exact .inr (.inr ⟨_, rfl⟩)

theorem valueText_null_iff : ValueText depth text .null rest ↔ PlainText text .null rest := by
  refine ⟨fun form => ?_, fun form => form.valueText depth⟩
  rcases form.kinds with form | ⟨_, ⟨⟩⟩ | ⟨_, ⟨⟩⟩
  exact form

theorem valueText_number_iff {held : Number} :
    ValueText depth text (.number held) rest ↔ NumberText text held rest := by
  refine ⟨fun form => ?_, fun form => (PlainText.number form).valueText depth⟩
  rcases form.kinds with form | ⟨_, ⟨⟩⟩ | ⟨_, ⟨⟩⟩
  cases form with
  | number form => exact form

theorem valueText_string_iff {held : String} : ValueText depth text (.string held) rest ↔
    ∃ behind, text = quote :: behind ∧ StringText behind held rest := by
  constructor
  · intro form
    rcases form.kinds with form | ⟨_, ⟨⟩⟩ | ⟨_, ⟨⟩⟩
    cases form with
    | string form => exact ⟨_, rfl, form⟩
  · rintro ⟨behind, rfl, form⟩
    exact (PlainText.string form).valueText depth

theorem mismatch_ne_ok {α : Type} {expected : String} {found : α} :
    mismatch expected text ≠ .ok (found, rest) := by
  intro done
  rw [mismatch, peek_bind] at done
  cases head : text.head? with
  | none =>
      rw [head] at done
      cases done
  | some byte =>
      simp only [head] at done
      split at done
      · cases done
      · split at done
        · cases done
        · obtain ⟨held, _, -, done⟩ := bind_read_eq_ok.1 done
          cases held <;> cases done

def IsInt64 (held : Value) (value : Int) : Prop :=
  held = .int value ∧ -2 ^ 63 ≤ value ∧ value < 2 ^ 63

theorem int64_eq_ok_iff {value : Int} (ends : Ends rest) : int64 text = .ok (value, rest) ↔
    ∃ solid held, Spaced text solid ∧ ValueText depth solid held rest ∧ IsInt64 held value := by
  constructor
  · intro done
    obtain ⟨byte, more, spaced, -, done⟩ := peekSolid_bind_eq_ok ⟨_, rfl⟩ done
    simp only at done
    split at done
    · obtain ⟨held, _, read, done⟩ := bind_read_eq_ok.1 done
      cases held with
      | float => cases done
      | int held =>
          simp only at done
          split at done
          · next most =>
              cases done
              have form := (number_eq_ok_iff ends).1 read
              exact ⟨_, _, spaced, valueText_number_iff.2 form, rfl, form.whole_of_int.1, most⟩
          · cases done
    · exact absurd done mismatch_ne_ok
  · rintro ⟨solid, _, spaced, form, rfl, -, most⟩
    have form := valueText_number_iff.1 form
    have small : value < Nat.pow 2 63 := most
    obtain ⟨byte, tail, rfl, starts⟩ := form.head
    rw [int64, spaced.peekSolid_bind, peekSolid_bind_cons (startsNumber_cases starts).1]
    simp only [starts, if_true]
    rw [bind_read ((number_eq_ok_iff ends).2 form)]
    simp only [small, if_true, pure_read]

theorem numberText_of_plain {byte : UInt8} (starts : startsNumber byte = true) {held : Value}
    (form : PlainText (byte :: text) held rest) :
    ∃ number, held = .number number ∧ NumberText (byte :: text) number rest := by
  cases form with
  | null => cases starts
  | true => cases starts
  | false => cases starts
  | string form => cases starts
  | number form => exact ⟨_, rfl, form⟩

theorem numberText_of_value {byte : UInt8} (starts : startsNumber byte = true) {held : Value}
    (form : ValueText depth (byte :: text) held rest) :
    ∃ number, held = .number number ∧ NumberText (byte :: text) number rest := by
  cases depth with
  | zero => exact numberText_of_plain starts form
  | succ depth =>
      cases form with
      | plain form => exact numberText_of_plain starts form
      | array form => cases starts
      | object form => cases starts

theorem isInt64_iff_literal {held : Value} {value : Int} (form : ValueText depth text held rest) :
    IsInt64 held value ↔
      text = Utf8.encode (toString value) ++ rest ∧ -2 ^ 63 ≤ value ∧ value < 2 ^ 63 := by
  constructor
  · rintro ⟨rfl, least, most⟩
    cases valueText_number_iff.1 form with
    | whole _ rest => exact ⟨rfl, least, most⟩
  · rintro ⟨isText, least, most⟩
    obtain ⟨byte, tail, first, starts⟩ := number_head value
    have written : Utf8.encode (toString value) = byte :: tail := first
    rw [isText, written, List.cons_append] at form
    obtain ⟨held, rfl, numeral⟩ := numberText_of_value starts form
    obtain ⟨front, same, read⟩ := numeral.front
    -- The numeral is the written one, which is read as this integer.
    have own := @number_read value [] ⟨least, by omega⟩ ends_nil
    rw [← List.cons_append, List.append_left_inj] at same
    rw [first, List.append_nil, same] at own
    cases own.symm.trans read
    exact ⟨rfl, least, most⟩

theorem string_eq_ok_iff {found : String} : string text = .ok (found, rest) ↔
    ∃ solid, Spaced text solid ∧ ValueText depth solid (.string found) rest := by
  simp only [valueText_string_iff]
  constructor
  · intro done
    rcases spaced_cases text with ⟨byte, more, spaced, solid⟩ | spaced
    · rw [string, textOf, spaced.peekSolid_bind, peekSolid_bind_cons solid] at done
      split at done
      · next isQuote =>
          cases isQuote
          rw [skipOne_bind, List.tail_cons] at done
          exact ⟨_, spaced, more, rfl, quotedText_eq_ok_iff.1 done⟩
      · exact absurd done mismatch_ne_ok
    · rw [string, textOf, spaced.peekSolid_bind] at done
      exact absurd (show mismatch "a string" [] = .ok (found, rest) from done) mismatch_ne_ok
  · rintro ⟨_, spaced, more, rfl, form⟩
    rw [string, textOf, spaced.peekSolid_bind, peekSolid_bind_cons (by decide), if_pos rfl,
      skipOne_bind, List.tail_cons]
    exact quotedText_eq_ok_iff.2 form

inductive Nullable : Value → Option String → Prop where
  | null : Nullable .null none
  | string (text : String) : Nullable (.string text) (some text)

theorem nullable_string_eq_ok_iff {found : Option String} :
    nullable string text = .ok (found, rest) ↔
      ∃ solid held, Spaced text solid ∧ ValueText depth solid held rest ∧ Nullable held found := by
  constructor
  · intro done
    rcases spaced_cases text with ⟨byte, more, spaced, solid⟩ | spaced
    · rw [nullable, spaced.peekSolid_bind, peekSolid_bind_cons solid] at done
      split at done
      · next isNull =>
          cases isNull
          obtain ⟨rfl, rfl⟩ := word_return_sound done
          exact ⟨_, .null, spaced, valueText_null_iff.2 (.null rest), .null⟩
      · obtain ⟨string, _, read, done⟩ := bind_read_eq_ok.1 done
        cases done
        obtain ⟨solid, inner, form⟩ := string_eq_ok_iff.1 read
        exact ⟨solid, _, spaced.trans inner, form, .string string⟩
    · rw [nullable, spaced.peekSolid_bind] at done
      obtain ⟨_, _, read, -⟩ := bind_read_eq_ok.1
        (show (do return some (← string)) [] = .ok (found, rest) from done)
      exact absurd (show mismatch "a string" [] = .ok _ from read) mismatch_ne_ok
  · rintro ⟨solid, held, spaced, form, isFound⟩
    rw [nullable, spaced.peekSolid_bind]
    cases isFound with
    | null =>
        have isWord := valueText_null_iff.1 form
        cases isWord with
        | null =>
            rw [List.cons_append, peekSolid_bind_cons (by decide), if_pos rfl, skipOne_bind,
              List.tail_cons, bind_read (word_read _ rest), pure_read]
    | string found =>
        have read := string_eq_ok_iff.2 ⟨solid, .refl _, form⟩
        obtain ⟨behind, rfl, -⟩ := valueText_string_iff.1 form
        rw [peekSolid_bind_cons (by decide), if_neg (by decide), bind_read read, pure_read]

end Kinds

/-! ## Fields -/

theorem refuseObject_ne_ok {α : Type} {cause : Cause} {text rest : Bytes} {found : α} :
    refuseObject cause text ≠ .ok (found, rest) := by
  intro done
  obtain ⟨byte, behind, -, done⟩ := bind_read_eq_ok.1 done
  split at done
  · cases done
  · cases done

section Once

variable {σ α : Type} {name : String} {before : Option α} {read : Reader α} {text rest : Bytes}

theorem once_eq_ok_iff {after : Option α} : once name before read text = .ok (after, rest) ↔
    before = none ∧ ∃ behind found, Spaced text (colon :: behind) ∧
      read behind = .ok (found, rest) ∧ after = some found := by
  cases before with
  | some held =>
      refine ⟨fun done => ?_, nofun⟩
      rw [once, Option.isSome_some, if_pos rfl] at done
      exact absurd done refuseObject_ne_ok
  | none =>
      simp only [once, Option.isSome_none, Bool.false_eq_true, if_false, bind_read_eq_ok,
        readColon_eq_ok_iff, pure_read, true_and]
      constructor
      · rintro ⟨_, behind, colons, found, _, taken, ⟨⟩⟩
        exact ⟨behind, found, colons, taken, rfl⟩
      · rintro ⟨behind, found, colons, taken, rfl⟩
        exact ⟨(), behind, colons, found, rest, taken, rfl⟩

theorem once_step_eq_ok_iff {depth : Nat} {means : Value → α → Prop} (fill : Option α → σ)
    (reads : ∀ {text : Bytes} {found : α}, read text = .ok (found, rest) ↔
      ∃ solid held, Spaced text solid ∧ ValueText depth solid held rest ∧ means held found)
    {after : σ} : (do return fill (← once name before read)) text = .ok (after, rest) ↔
      ∃ behind solid held, Spaced text (colon :: behind) ∧ Spaced behind solid ∧
        ValueText depth solid held rest ∧ before = none ∧
          ∃ found, means held found ∧ after = fill (some found) := by
  simp only [bind_read_eq_ok, once_eq_ok_iff, pure_read]
  constructor
  · rintro ⟨_, _, ⟨empty, behind, found, colons, taken, rfl⟩, ⟨⟩⟩
    obtain ⟨solid, held, spaced, form, isFound⟩ := reads.1 taken
    exact ⟨behind, solid, held, colons, spaced, form, empty, found, isFound, rfl⟩
  · rintro ⟨behind, solid, held, colons, spaced, form, empty, found, isFound, rfl⟩
    exact ⟨_, rest, ⟨empty, behind, found, colons, reads.2 ⟨solid, held, spaced, form, isFound⟩,
      rfl⟩, rfl⟩

end Once

section FillsOnce

variable {σ α : Type}

def valuesOf (name : String) (members : List (String × Value)) : List Value :=
  (members.filter (·.1 = name)).map Prod.snd

theorem valuesOf_cons_self (name : String) (held : Value) (members : List (String × Value)) :
    valuesOf name ((name, held) :: members) = held :: valuesOf name members := by
  simp [valuesOf]

theorem valuesOf_cons_other {name other : String} (differs : other ≠ name) (held : Value)
    (members : List (String × Value)) :
    valuesOf name ((other, held) :: members) = valuesOf name members := by
  simp [valuesOf, differs]

theorem mem_valuesOf {name : String} {held : Value} {members : List (String × Value)} :
    held ∈ valuesOf name members ↔ (name, held) ∈ members := by
  simp [valuesOf]

theorem valuesOf_append (name : String) (left right : List (String × Value)) :
    valuesOf name (left ++ right) = valuesOf name left ++ valuesOf name right := by
  simp [valuesOf]

/-- Steps that fill a field with what the value of its own name means, and only once. -/
structure FillsOnce (step : σ → String → Value → σ → Prop) (name : String) (field : σ → Option α)
    (means : Value → α → Prop) : Prop where
  own {before after : σ} {held : Value} (here : step before name held after) :
    field before = none ∧ ∃ found, means held found ∧ field after = some found
  other {before after : σ} {other : String} {held : Value} (here : step before other held after)
    (differs : other ≠ name) : field after = field before

theorem FillsOnce.steps {step : σ → String → Value → σ → Prop} {name : String}
    {field : σ → Option α} {means : Value → α → Prop} (fills : FillsOnce step name field means)
    {before after : σ} {members : List (String × Value)} (steps : Steps step before members after) :
    (valuesOf name members = [] ∧ field after = field before) ∨
      ∃ held found, valuesOf name members = [held] ∧ field before = none ∧ means held found ∧
        field after = some found := by
  induction steps with
  | nil state => exact .inl ⟨rfl, rfl⟩
  | @cons before between after other held members here more ih =>
      by_cases same : other = name
      · subst same
        obtain ⟨empty, found, isFound, filled⟩ := fills.own here
        rw [valuesOf_cons_self]
        -- The field is full from here on, so no later member has the name.
        rcases ih with ⟨absent, kept⟩ | ⟨_, _, -, stillEmpty, -, -⟩
        · exact .inr ⟨held, found, by rw [absent], empty, isFound, kept.trans filled⟩
        · cases stillEmpty.symm.trans filled
      · rw [valuesOf_cons_other same, ← fills.other here same]
        exact ih

/-- What the values under a name make of a field: without any it stays as it is, and a single one
fills it if it is empty. -/
inductive FilledBy (means : Value → α → Prop) (before : Option α) : List Value → Option α → Prop where
  | kept : FilledBy means before [] before
  | once {held : Value} {found : α} (empty : before = none) (isFound : means held found) :
      FilledBy means before [held] (some found)

theorem FillsOnce.filled {step : σ → String → Value → σ → Prop} {name : String}
    {field : σ → Option α} {means : Value → α → Prop} (fills : FillsOnce step name field means)
    {before after : σ} {members : List (String × Value)} (steps : Steps step before members after) :
    FilledBy means (field before) (valuesOf name members) (field after) := by
  rcases fills.steps steps with ⟨absent, kept⟩ | ⟨held, found, only, empty, isFound, filled⟩
  · rw [absent, kept]
    exact .kept
  · rw [only, filled]
    exact .once empty isFound

theorem FilledBy.of_cons {means : Value → α → Prop} {before after : Option α} {held : Value}
    {values : List Value} (filled : FilledBy means before (held :: values) after) :
    ∃ found, before = none ∧ means held found ∧ FilledBy means (some found) values after := by
  cases filled with
  | once empty isFound => exact ⟨_, empty, isFound, .kept⟩

theorem exists_filledBy_iff {means : Value → α → Prop} {values : List Value} :
    (∃ after, FilledBy means none values after) ↔
      values.length ≤ 1 ∧ ∀ held ∈ values, ∃ found, means held found := by
  constructor
  · rintro ⟨_, ⟨⟩ | ⟨-, isFound⟩⟩
    · exact ⟨Nat.zero_le 1, fun _ inside => by cases inside⟩
    · refine ⟨Nat.le_refl 1, fun held inside => ?_⟩
      rw [List.mem_singleton.1 inside]
      exact ⟨_, isFound⟩
  · rintro ⟨few, good⟩
    match values with
    | [] => exact ⟨none, .kept⟩
    | [held] =>
        obtain ⟨found, isFound⟩ := good held List.mem_cons_self
        exact ⟨some found, .once rfl isFound⟩
    | _ :: _ :: _ => exact absurd few (by simp)

end FillsOnce

/-! ## Objects -/

section Objects

variable {σ α : Type} {member : σ → String → Reader σ} {step : σ → String → Value → σ → Prop}
  {depth : Nat}

theorem object_eq_ok_iff (follows : Follows member (ValueText depth) step) {start : σ}
    {complete : σ → α} {behind rest : Bytes} {found : α} :
    object member start (fun state => return complete state) (openBrace :: behind) =
      .ok (found, rest) ↔
        ∃ members after, Elements closeBrace (MemberText (ValueText depth)) true behind members rest ∧
          Steps step start members after ∧ found = complete after := by
  simp only [object, skipOne_bind, List.tail_cons, rounds_bind]
  constructor
  · intro done
    obtain ⟨after, between, read, done⟩ := bind_read_eq_ok.1 done
    obtain ⟨members, rest, rfl, form, steps⟩ := foldMembers_sound follows read
    cases done
    exact ⟨members, after, form, steps, rfl⟩
  · rintro ⟨members, after, form, steps, rfl⟩
    have enough : members.length < behind.length + 1 :=
      Nat.lt_succ_of_le (form.length_le (MemberText.length_le ValueText.length_le)).2.1
    rw [bind_read (foldMembers_complete follows form steps enough)]
    rfl

theorem run_eq_ok_iff {read : Reader α} {text : Bytes} {found : α} :
    run read text = .ok found ↔ ∃ rest, read text = .ok (found, rest) ∧ Blank rest := by
  rw [run]
  cases reading : read text with
  | error fault => simp
  | ok pair =>
      obtain ⟨other, rest⟩ := pair
      cases left : rest.dropWhile isBlank with
      | nil =>
          have blank := List.dropWhile_eq_nil_iff.1 left
          simp only [left, Except.ok.injEq, Prod.mk.injEq]
          constructor
          · rintro rfl
            exact ⟨rest, ⟨rfl, rfl⟩, blank⟩
          · rintro ⟨_, ⟨rfl, -⟩, -⟩
            rfl
      | cons byte more =>
          simp only [left]
          constructor
          · intro done
            cases done
          · rintro ⟨_, ⟨⟩, blank⟩
            cases left.symm.trans (List.dropWhile_eq_nil_iff.2 blank)

theorem run_object_eq_ok_iff (follows : Follows member (ValueText (maxDepth - 1)) step) {start : σ}
    {complete : σ → α} {expected : String} {text : Bytes} {found : α} :
    run (do
      if (← peekSolid) = some openBrace then
        object member start fun state => return complete state
      else mismatch expected) text = .ok found ↔
        ∃ members after, ObjectText text members ∧ Steps step start members after ∧
          found = complete after := by
  rw [run_eq_ok_iff]
  constructor
  · rintro ⟨rest, read, blank⟩
    rcases spaced_cases text with ⟨byte, behind, spaced, solid⟩ | spaced
    · rw [spaced.peekSolid_bind, peekSolid_bind_cons solid] at read
      split at read
      · next isBrace =>
          cases isBrace
          obtain ⟨members, after, form, steps, rfl⟩ := (object_eq_ok_iff follows).1 read
          exact ⟨members, after, .intro spaced form blank, steps, rfl⟩
      · exact absurd read mismatch_ne_ok
    · rw [spaced.peekSolid_bind] at read
      exact absurd (show mismatch expected [] = .ok (found, rest) from read) mismatch_ne_ok
  · rintro ⟨members, after, ⟨spaced, form, blank⟩, steps, rfl⟩
    refine ⟨_, ?_, blank⟩
    rw [spaced.peekSolid_bind, peekSolid_bind_cons (by decide), if_pos rfl]
    exact (object_eq_ok_iff follows).2 ⟨members, after, form, steps, rfl⟩

end Objects

/-! ## One object has one list of members -/

def gather : Reader (List (String × Value)) := do
  if (← peekSolid) = some openBrace then
    object (fun before name => do
      readColon
      return before ++ [(name, ← value (maxDepth - 1))]) [] fun members => return members
  else mismatch "an object"

theorem run_gather_eq_ok_iff {text : Bytes} {members : List (String × Value)} :
    run gather text = .ok members ↔ ObjectText text members := by
  have kept (members : List (String × Value)) : members.foldl
      (fun before member => before ++ [(member.1, member.2)]) [] = members := by
    rw [List.foldl_append_eq_append, List.nil_append, ← List.flatMap_def,
      List.flatMap_singleton' members]
  rw [gather, run_object_eq_ok_iff (follows_becomes value_eq_ok_iff)]
  simp only [steps_becomes, kept]
  constructor
  · rintro ⟨_, _, form, rfl, rfl⟩
    exact form
  · intro form
    exact ⟨members, members, form, rfl, rfl⟩

theorem ObjectText.unique {text : Bytes} {left right : List (String × Value)}
    (first : ObjectText text left) (second : ObjectText text right) : left = right :=
  Except.ok.inj ((run_gather_eq_ok_iff.2 first).symm.trans (run_gather_eq_ok_iff.2 second))

end Bearer.Json
