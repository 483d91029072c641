import Bearer.Json.Reader.Value
import Bearer.Proofs.Json.Grammar.Number
import Bearer.Proofs.Json.Grammar.Text
import Bearer.Proofs.Json.Value

namespace Bearer.Json

open Reader

/-! ## The grammar -/

def Spaced (text rest : Bytes) : Prop := ∃ blanks, Blank blanks ∧ text = blanks ++ rest

/-- Elements up to a closing byte, and what follows it. All but the first stand behind commas. -/
inductive Elements {α : Type} (closing : UInt8) (element : Bytes → α → Bytes → Prop) :
    Bool → Bytes → List α → Bytes → Prop where
  | close (first : Bool) {text rest : Bytes} (spaced : Spaced text (closing :: rest)) :
      Elements closing element first text [] rest
  | first {text solid between rest : Bytes} {head : α} {tail : List α} (spaced : Spaced text solid)
      (front : element solid head between)
      (more : Elements closing element false between tail rest) :
      Elements closing element true text (head :: tail) rest
  | next {text behind solid between rest : Bytes} {head : α} {tail : List α}
      (separated : Spaced text (comma :: behind)) (spaced : Spaced behind solid)
      (front : element solid head between)
      (more : Elements closing element false between tail rest) :
      Elements closing element false text (head :: tail) rest

inductive MemberText (value : Bytes → Value → Bytes → Prop) :
    Bytes → String × Value → Bytes → Prop where
  | intro {text behind afterColon solid rest : Bytes} {name : String} {held : Value}
      (named : StringText text name behind) (colons : Spaced behind (colon :: afterColon))
      (spaced : Spaced afterColon solid) (valued : value solid held rest) :
      MemberText value (quote :: text) (name, held) rest

inductive PlainText : Bytes → Value → Bytes → Prop where
  | null (rest : Bytes) : PlainText ([110, 117, 108, 108] ++ rest) .null rest
  | true (rest : Bytes) : PlainText ([116, 114, 117, 101] ++ rest) (.bool true) rest
  | false (rest : Bytes) : PlainText ([102, 97, 108, 115, 101] ++ rest) (.bool false) rest
  | number {text rest : Bytes} {held : Number} (form : NumberText text held rest) :
      PlainText text (.number held) rest
  | string {text rest : Bytes} {held : String} (form : StringText text held rest) :
      PlainText (quote :: text) (.string held) rest

/-- A value whose parts, if it has any, are of a form of their own. Of several members with one name
the last counts. -/
inductive NestedText (inner : Bytes → Value → Bytes → Prop) : Bytes → Value → Bytes → Prop where
  | plain {text rest : Bytes} {held : Value} (form : PlainText text held rest) :
      NestedText inner text held rest
  | array {text rest : Bytes} {items : List Value}
      (form : Elements closeBracket inner true text items rest) :
      NestedText inner (openBracket :: text) (.array items) rest
  | object {text rest : Bytes} {members : List (String × Value)}
      (form : Elements closeBrace (MemberText inner) true text members rest) :
      NestedText inner (openBrace :: text) (.object (Members.ofList members)) rest

/-- A value with at most `depth` lists and objects around its parts. -/
def ValueText : Nat → Bytes → Value → Bytes → Prop
  | 0 => PlainText
  | depth + 1 => NestedText (ValueText depth)

/-! ## Blanks -/

theorem Spaced.refl (text : Bytes) : Spaced text text := ⟨[], blank_nil, rfl⟩

theorem Spaced.trans {text between rest : Bytes} (first : Spaced text between)
    (second : Spaced between rest) : Spaced text rest := by
  obtain ⟨left, leftBlank, rfl⟩ := first
  obtain ⟨right, rightBlank, rfl⟩ := second
  refine ⟨left ++ right, fun byte member => ?_, (List.append_assoc ..).symm⟩
  exact (List.mem_append.1 member).elim (leftBlank byte) (rightBlank byte)

theorem Spaced.ends {text rest : Bytes} (spaced : Spaced text rest) (ends : Ends rest) :
    Ends text := by
  obtain ⟨blanks, blank, rfl⟩ := spaced
  exact ends_blank blank ends

theorem Spaced.length_le {text rest : Bytes} (spaced : Spaced text rest) :
    rest.length ≤ text.length := by
  obtain ⟨blanks, -, rfl⟩ := spaced
  simp

theorem Spaced.peekSolid_bind {β : Type} {text rest : Bytes} (spaced : Spaced text rest)
    (next : Option UInt8 → Reader β) : (peekSolid >>= next) text = (peekSolid >>= next) rest := by
  obtain ⟨blanks, blank, rfl⟩ := spaced
  have same : (blanks ++ rest).dropWhile isBlank = rest.dropWhile isBlank :=
    List.dropWhile_append_of_pos blank
  have seen (text : Bytes) : peekSolid text =
      .ok ((text.dropWhile isBlank).head?, text.dropWhile isBlank) := rfl
  rw [bind_read (seen _), bind_read (seen _), same]

theorem spaced_cases (text : Bytes) : (∃ byte rest, Spaced text (byte :: rest) ∧
    isBlank byte = false) ∨ Spaced text [] := by
  have blank : Blank (text.takeWhile isBlank) := List.all_eq_true.1 List.all_takeWhile
  cases left : text.dropWhile isBlank with
  | nil => exact .inr ⟨_, blank, by rw [← left, List.takeWhile_append_dropWhile]⟩
  | cons byte rest =>
      refine .inl ⟨byte, rest, ⟨_, blank, by rw [← left, List.takeWhile_append_dropWhile]⟩, ?_⟩
      have stop := List.head?_dropWhile_not isBlank text
      rw [left] at stop
      exact stop

theorem peekSolid_bind_eq_ok {β : Type} {next : Option UInt8 → Reader β} {text rest : Bytes}
    {result : β} (atEnd : ∃ fault, next none [] = .error fault)
    (done : (peekSolid >>= next) text = .ok (result, rest)) :
    ∃ byte more, Spaced text (byte :: more) ∧ isBlank byte = false ∧
      next (some byte) (byte :: more) = .ok (result, rest) := by
  rcases spaced_cases text with ⟨byte, more, spaced, solid⟩ | spaced
  · rw [spaced.peekSolid_bind, peekSolid_bind_cons solid] at done
    exact ⟨byte, more, spaced, solid, done⟩
  · obtain ⟨fault, failed⟩ := atEnd
    rw [spaced.peekSolid_bind] at done
    cases failed.symm.trans done

/-! ## Words and colons -/

theorem word_eq_ok_iff {letters text rest : Bytes} {found : Unit} :
    word letters text = .ok (found, rest) ↔ text = letters ++ rest := by
  constructor
  · intro done
    induction letters generalizing text with
    | nil =>
        cases done
        rfl
    | cons letter letters ih =>
        cases text with
        | nil => cases done
        | cons byte text =>
            rw [word, next?_bind] at done
            simp only [List.head?_cons, List.tail_cons] at done
            split at done
            · next same => rw [same, ih done, List.cons_append]
            · cases done
  · rintro rfl
    exact word_read letters rest

theorem readColon_eq_ok_iff {text rest : Bytes} {found : Unit} :
    readColon text = .ok (found, rest) ↔ Spaced text (colon :: rest) := by
  constructor
  · intro done
    obtain ⟨byte, more, spaced, -, done⟩ := peekSolid_bind_eq_ok ⟨_, rfl⟩ done
    simp only at done
    split at done
    · next same =>
        subst same
        cases done
        exact spaced
    · cases done
  · intro spaced
    rw [readColon, spaced.peekSolid_bind]
    exact readColon_read rest

/-! ## Lists -/

theorem ends_of_solid {text rest : Bytes} {byte : UInt8} (spaced : Spaced text (byte :: rest))
    (isMark : byte = comma ∨ byte = colon ∨ byte = closeBracket ∨ byte = closeBrace) :
    Ends text := by
  refine spaced.ends (ends_cons ?_)
  rcases isMark with rfl | rfl | rfl | rfl <;> decide

section Elements

variable {α : Type} {closing : UInt8} {element : Bytes → α → Bytes → Prop}

theorem Elements.ends {text rest : Bytes} {list : List α}
    (form : Elements closing element false text list rest)
    (closes : closing = closeBracket ∨ closing = closeBrace) : Ends text := by
  cases form with
  | close _ spaced => exact ends_of_solid spaced (.inr (.inr closes))
  | next separated _ _ _ => exact ends_of_solid separated (.inl rfl)

theorem Elements.length_le
    (shortens : ∀ {text rest : Bytes} {found : α}, element text found rest →
      rest.length ≤ text.length)
    {first : Bool} {text rest : Bytes} {list : List α}
    (form : Elements closing element first text list rest) :
    rest.length < text.length ∧ list.length ≤ text.length ∧
      (first = false → list.length < text.length) := by
  induction form with
  | close first spaced =>
      have bound := spaced.length_le
      simp only [List.length_cons, List.length_nil] at bound ⊢
      omega
  | first spaced front more ih =>
      have bound := spaced.length_le
      have shorter := shortens front
      have few := ih.2.2 rfl
      rw [List.length_cons]
      exact ⟨by omega, by omega, nofun⟩
  | next separated spaced front more ih =>
      have bound := separated.length_le
      have inner := spaced.length_le
      have shorter := shortens front
      have few := ih.2.2 rfl
      simp only [List.length_cons] at bound ⊢
      omega

end Elements

inductive ItemsGoOn : Bool → Bytes → Bool → Bytes → Prop where
  | close (first : Bool) {text rest : Bytes} (spaced : Spaced text (closeBracket :: rest)) :
      ItemsGoOn first text false (closeBracket :: rest)
  | first {text rest : Bytes} (spaced : Spaced text rest) : ItemsGoOn true text true rest
  | next {text behind rest : Bytes} (separated : Spaced text (comma :: behind))
      (spaced : Spaced behind rest) : ItemsGoOn false text true rest

theorem moreItems_sound {first more : Bool} {text rest : Bytes}
    (done : moreItems first text = .ok (more, rest)) : ItemsGoOn first text more rest := by
  obtain ⟨byte, behind, spaced, -, done⟩ := peekSolid_bind_eq_ok ⟨_, rfl⟩ done
  simp only at done
  split at done
  · next isClose =>
      subst isClose
      cases done
      exact .close first spaced
  · cases first with
    | true =>
        cases done
        exact .first spaced
    | false =>
        rw [if_neg Bool.false_ne_true] at done
        split at done
        · next isComma =>
            subst isComma
            rw [skipOne_bind, List.tail_cons] at done
            obtain ⟨_, _, inside, -, done⟩ := peekSolid_bind_eq_ok ⟨_, rfl⟩ done
            simp only at done
            split at done
            · cases done
            · cases done
              exact .next spaced inside
        · cases done

theorem ItemsGoOn.read {first more : Bool} {text rest : Bytes}
    (goOn : ItemsGoOn first text more rest) (inside : more = true → ∃ byte tail,
      rest = byte :: tail ∧ isBlank byte = false ∧ byte ≠ closeBracket) :
    moreItems first text = .ok (more, rest) := by
  cases goOn with
  | close _ spaced =>
      rw [moreItems, spaced.peekSolid_bind]
      exact moreItems_close first _
  | first spaced =>
      obtain ⟨byte, tail, rfl, solid, notClose⟩ := inside rfl
      rw [moreItems, spaced.peekSolid_bind]
      exact moreItems_first solid notClose
  | next separated spaced =>
      obtain ⟨byte, tail, rfl, solid, notClose⟩ := inside rfl
      rw [moreItems, separated.peekSolid_bind, peekSolid_bind_cons (by decide)]
      simp only [show comma ≠ closeBracket by decide, if_false, Bool.false_eq_true, if_true,
        skipOne_bind, List.tail_cons]
      rw [spaced.peekSolid_bind, peekSolid_bind_cons solid]
      simp [notClose]

section Items

variable {α : Type} {item : Reader α} {element : Bytes → α → Bytes → Prop}

theorem items_sound
    (sound : ∀ {text rest : Bytes} {found : α}, Ends rest → item text = .ok (found, rest) →
      ∃ solid, Spaced text solid ∧ element solid found rest)
    {rounds : Nat} {first : Bool} {text between : Bytes} {list : List α}
    (done : items item rounds first text = .ok (list, between)) :
    ∃ rest, between = closeBracket :: rest ∧ Elements closeBracket element first text list rest := by
  induction rounds generalizing first text list with
  | zero => cases done
  | succ rounds ih =>
      rw [items] at done
      obtain ⟨more, stripped, asked, done⟩ := bind_read_eq_ok.1 done
      have goOn := moreItems_sound asked
      cases more with
      | false =>
          cases done
          cases goOn with
          | close _ spaced => exact ⟨_, rfl, .close first spaced⟩
      | true =>
          simp only [if_true, bind_read_eq_ok] at done
          obtain ⟨head, behind, front, tail, _, others, done⟩ := done
          cases done
          obtain ⟨rest, rfl, form⟩ := ih others
          obtain ⟨solid, inner, valued⟩ := sound (form.ends (.inl rfl)) front
          cases goOn with
          | first spaced => exact ⟨rest, rfl, .first (spaced.trans inner) valued form⟩
          | next separated spaced =>
              exact ⟨rest, rfl, .next separated (spaced.trans inner) valued form⟩

theorem items_complete
    (complete : ∀ {text rest : Bytes} {found : α}, Ends rest → element text found rest →
      item text = .ok (found, rest))
    (head : ∀ {text rest : Bytes} {found : α}, element text found rest → ∃ byte tail,
      text = byte :: tail ∧ isBlank byte = false ∧ byte ≠ closeBracket)
    {first : Bool} {text rest : Bytes} {list : List α}
    (form : Elements closeBracket element first text list rest) {rounds : Nat}
    (enough : list.length < rounds) :
    items item rounds first text = .ok (list, closeBracket :: rest) := by
  induction form generalizing rounds with
  | close first spaced =>
      obtain ⟨rounds, rfl⟩ := Nat.exists_eq_succ_of_ne_zero (Nat.ne_zero_of_lt enough)
      exact items_end ((ItemsGoOn.close first spaced).read nofun)
  | first spaced front more ih =>
      obtain ⟨rounds, rfl⟩ := Nat.exists_eq_succ_of_ne_zero (Nat.ne_zero_of_lt enough)
      exact items_round ((ItemsGoOn.first spaced).read fun _ => head front)
        (complete (more.ends (.inl rfl)) front) (ih (Nat.lt_of_succ_lt_succ enough))
  | next separated spaced front more ih =>
      obtain ⟨rounds, rfl⟩ := Nat.exists_eq_succ_of_ne_zero (Nat.ne_zero_of_lt enough)
      exact items_round ((ItemsGoOn.next separated spaced).read fun _ => head front)
        (complete (more.ends (.inl rfl)) front) (ih (Nat.lt_of_succ_lt_succ enough))

end Items

/-! ## Objects -/

inductive MembersGoOn : Bool → Bytes → Bool → Bytes → Prop where
  | close (first : Bool) {text rest : Bytes} (spaced : Spaced text (closeBrace :: rest)) :
      MembersGoOn first text false (closeBrace :: rest)
  | first {text rest : Bytes} (spaced : Spaced text (quote :: rest)) :
      MembersGoOn true text true (quote :: rest)
  | next {text behind rest : Bytes} (separated : Spaced text (comma :: behind))
      (spaced : Spaced behind (quote :: rest)) : MembersGoOn false text true (quote :: rest)

theorem moreMembers_eq_ok_iff {first more : Bool} {text rest : Bytes} :
    moreMembers first text = .ok (more, rest) ↔ MembersGoOn first text more rest := by
  constructor
  · intro done
    obtain ⟨byte, behind, spaced, -, done⟩ := peekSolid_bind_eq_ok ⟨_, rfl⟩ done
    simp only at done
    split at done
    · next isClose =>
        subst isClose
        cases done
        exact .close first spaced
    · cases first with
      | true =>
          rw [if_pos rfl] at done
          split at done
          · next isQuote =>
              subst isQuote
              cases done
              exact .first spaced
          · cases done
      | false =>
          rw [if_neg Bool.false_ne_true] at done
          split at done
          · next isComma =>
              subst isComma
              rw [skipOne_bind, List.tail_cons] at done
              -- A comma is not the end: another member has to come behind it.
              obtain ⟨byte, _, inside, -, done⟩ := peekSolid_bind_eq_ok ⟨_, rfl⟩ done
              simp only at done
              split at done
              · next isQuote =>
                  subst isQuote
                  cases done
                  exact .next spaced inside
              · split at done
                · cases done
                · cases done
          · cases done
  · rintro (⟨_, spaced⟩ | ⟨spaced⟩ | ⟨separated, spaced⟩)
    · rw [moreMembers, spaced.peekSolid_bind]
      exact moreMembers_close first _ blank_nil
    · rw [moreMembers, spaced.peekSolid_bind]
      exact moreMembers_first _ blank_nil
    · rw [moreMembers, separated.peekSolid_bind, peekSolid_bind_cons (by decide)]
      simp only [show comma ≠ closeBrace by decide, if_false, Bool.false_eq_true, if_true,
        skipOne_bind, List.tail_cons]
      rw [spaced.peekSolid_bind, peekSolid_bind_cons (by decide)]
      rfl

section Members

variable {σ : Type}

inductive Steps (step : σ → String → Value → σ → Prop) :
    σ → List (String × Value) → σ → Prop where
  | nil (state : σ) : Steps step state [] state
  | cons {before between after : σ} {name : String} {held : Value}
      {members : List (String × Value)} (here : step before name held between)
      (more : Steps step between members after) : Steps step before ((name, held) :: members) after

/-- A reader of members that reads a value behind a colon and takes a step with it. -/
def Follows (member : σ → String → Reader σ) (form : Bytes → Value → Bytes → Prop)
    (step : σ → String → Value → σ → Prop) : Prop :=
  ∀ (before after : σ) (name : String) (text rest : Bytes), Ends rest →
    (member before name text = .ok (after, rest) ↔ ∃ behind solid held,
      Spaced text (colon :: behind) ∧ Spaced behind solid ∧ form solid held rest ∧
        step before name held after)

variable {member : σ → String → Reader σ} {form : Bytes → Value → Bytes → Prop}
  {step : σ → String → Value → σ → Prop}

theorem foldMembers_sound (follows : Follows member form step) {rounds : Nat} {first : Bool}
    {before after : σ} {text between : Bytes}
    (done : foldMembers member rounds first before text = .ok (after, between)) :
    ∃ members rest, between = closeBrace :: rest ∧
      Elements closeBrace (MemberText form) first text members rest ∧
      Steps step before members after := by
  induction rounds generalizing first before text with
  | zero => cases done
  | succ rounds ih =>
      rw [foldMembers] at done
      obtain ⟨more, stripped, asked, done⟩ := bind_read_eq_ok.1 done
      have goOn := moreMembers_eq_ok_iff.1 asked
      cases more with
      | false =>
          cases done
          cases goOn with
          | close _ spaced => exact ⟨[], _, rfl, .close first spaced, .nil _⟩
      | true =>
          simp only [if_true, bind_read_eq_ok] at done
          obtain ⟨name, behind, named, state, left, taken, others⟩ := done
          obtain ⟨members, rest, rfl, more, steps⟩ := ih others
          obtain ⟨_, solid, held, colons, inner, valued, here⟩ :=
            (follows _ _ _ _ _ (more.ends (.inr rfl))).1 taken
          have whole (text : Bytes) (named : Reader.name (quote :: text) = .ok (name, behind)) :
              MemberText form (quote :: text) (name, held) left :=
            .intro (quotedText_eq_ok_iff.1 named) colons inner valued
          cases goOn with
          | first spaced =>
              exact ⟨_, rest, rfl, .first spaced (whole _ named) more, .cons here steps⟩
          | next separated spaced =>
              exact ⟨_, rest, rfl, .next separated spaced (whole _ named) more, .cons here steps⟩

theorem memberText_read (follows : Follows member form step) {text rest : Bytes} {name : String}
    {held : Value} (front : MemberText form text (name, held) rest) (ends : Ends rest)
    {before after : σ} (here : step before name held after) :
    ∃ behind, Reader.name text = .ok (name, behind) ∧
      member before name behind = .ok (after, rest) := by
  cases front with
  | intro named colons inner valued =>
      refine ⟨_, ?_, (follows _ _ _ _ _ ends).2 ⟨_, _, held, colons, inner, valued, here⟩⟩
      rw [Reader.name, skipOne_bind]
      exact quotedText_eq_ok_iff.2 named

theorem MemberText.head {text rest : Bytes} {found : String × Value}
    (front : MemberText form text found rest) : ∃ behind, text = quote :: behind := by
  cases front with
  | intro _ _ _ _ => exact ⟨_, rfl⟩

theorem foldMembers_complete (follows : Follows member form step) {first : Bool} {before after : σ}
    {text rest : Bytes} {members : List (String × Value)}
    (elements : Elements closeBrace (MemberText form) first text members rest)
    (steps : Steps step before members after) {rounds : Nat} (enough : members.length < rounds) :
    foldMembers member rounds first before text = .ok (after, closeBrace :: rest) := by
  induction elements generalizing before rounds with
  | close first spaced =>
      obtain ⟨rounds, rfl⟩ := Nat.exists_eq_succ_of_ne_zero (Nat.ne_zero_of_lt enough)
      cases steps
      exact foldMembers_end (moreMembers_eq_ok_iff.2 (.close first spaced)) _
  | first spaced front more ih =>
      obtain ⟨rounds, rfl⟩ := Nat.exists_eq_succ_of_ne_zero (Nat.ne_zero_of_lt enough)
      obtain ⟨_, rfl⟩ := front.head
      cases steps with
      | cons here others =>
          obtain ⟨behind, named, taken⟩ :=
            memberText_read follows front (more.ends (.inr rfl)) here
          rw [foldMembers_round (moreMembers_eq_ok_iff.2 (.first spaced)) named taken]
          exact ih others (Nat.lt_of_succ_lt_succ enough)
  | next separated spaced front more ih =>
      obtain ⟨rounds, rfl⟩ := Nat.exists_eq_succ_of_ne_zero (Nat.ne_zero_of_lt enough)
      obtain ⟨_, rfl⟩ := front.head
      cases steps with
      | cons here others =>
          obtain ⟨behind, named, taken⟩ :=
            memberText_read follows front (more.ends (.inr rfl)) here
          rw [foldMembers_round (moreMembers_eq_ok_iff.2 (.next separated spaced)) named taken]
          exact ih others (Nat.lt_of_succ_lt_succ enough)

end Members

/-! ## Values -/

section Becomes

variable {σ : Type} {next : σ → String → Value → σ}

def Becomes (next : σ → String → Value → σ) (before : σ) (name : String) (held : Value)
    (after : σ) : Prop := after = next before name held

theorem follows_becomes {value : Reader Value} {form : Bytes → Value → Bytes → Prop}
    (reads : ∀ {text rest : Bytes} {found : Value}, Ends rest →
      (value text = .ok (found, rest) ↔ ∃ solid, Spaced text solid ∧ form solid found rest)) :
    Follows (fun before name => do
      readColon
      return next before name (← value)) form (Becomes next) := by
  intro before after name text rest ends
  simp only [bind_read_eq_ok, readColon_eq_ok_iff, pure_read]
  constructor
  · rintro ⟨_, behind, colons, held, _, taken, ⟨⟩⟩
    obtain ⟨solid, inner, valued⟩ := (reads ends).1 taken
    exact ⟨behind, solid, held, colons, inner, valued, rfl⟩
  · rintro ⟨behind, solid, held, colons, inner, valued, rfl⟩
    exact ⟨(), behind, colons, held, rest, (reads ends).2 ⟨solid, inner, valued⟩, rfl⟩

theorem steps_becomes {before after : σ} {members : List (String × Value)} :
    Steps (Becomes next) before members after ↔
      after = members.foldl (fun state member => next state member.1 member.2) before := by
  constructor
  · intro steps
    induction steps with
    | nil => rfl
    | cons here _ ih => rw [ih, here, List.foldl_cons]
  · rintro rfl
    induction members generalizing before with
    | nil => exact .nil before
    | cons member members ih => exact .cons rfl ih

end Becomes

inductive ValueRead (depth : Nat) (text : Bytes) (found : Value) (rest : Bytes) : Prop where
  | plain (form : PlainText text found rest)
  | array {inner : Nat} {more between : Bytes} {list : List Value} (deep : depth = inner + 1)
      (opened : text = openBracket :: more)
      (read : items (value inner) (more.length + 1) true more = .ok (list, between))
      (closed : closeList between = .ok ((), rest)) (isFound : found = .array list)
  | object {inner : Nat} {more between : Bytes} {members : Members} (deep : depth = inner + 1)
      (opened : text = openBrace :: more)
      (read : foldMembers (addMember (value inner)) (more.length + 1) true [] more =
        .ok (members, between))
      (closed : between.tail = rest) (isFound : found = .object members)

theorem word_return_sound {α : Type} {byte : UInt8} {letters more rest : Bytes} {held found : α}
    (done : (do skipOne; word letters; return held : Reader α) (byte :: more) =
      .ok (found, rest)) : more = letters ++ rest ∧ found = held := by
  rw [skipOne_bind, List.tail_cons] at done
  obtain ⟨_, _, letters, done⟩ := bind_read_eq_ok.1 done
  cases done
  exact ⟨word_eq_ok_iff.1 letters, rfl⟩

theorem value_cases {depth : Nat} {byte : UInt8} {more rest : Bytes} {found : Value}
    (solid : isBlank byte = false) (ends : Ends rest)
    (done : value depth (byte :: more) = .ok (found, rest)) :
    ValueRead depth (byte :: more) found rest := by
  -- The first byte decides, and the reader tries null, true, false, numbers, texts, lists, objects.
  rw [value_cons depth solid] at done
  split at done
  · next isNull =>
      subst isNull
      obtain ⟨rfl, rfl⟩ := word_return_sound done
      exact .plain (.null rest)
  · split at done
    · next isTrue =>
        subst isTrue
        obtain ⟨rfl, rfl⟩ := word_return_sound done
        exact .plain (.true rest)
    · split at done
      · next isFalse =>
          subst isFalse
          obtain ⟨rfl, rfl⟩ := word_return_sound done
          exact .plain (.false rest)
      · split at done
        · obtain ⟨held, _, numeral, done⟩ := bind_read_eq_ok.1 done
          cases done
          exact .plain (.number ((number_eq_ok_iff ends).1 numeral))
        · split at done
          · next isQuote =>
              subst isQuote
              rw [skipOne_bind, List.tail_cons] at done
              obtain ⟨held, _, string, done⟩ := bind_read_eq_ok.1 done
              cases done
              exact .plain (.string (quotedText_eq_ok_iff.1 string))
          · split at done
            · next isBracket =>
                subst isBracket
                cases depth with
                | zero => cases done
                | succ inner =>
                    simp only [skipOne_bind, rounds_bind, List.tail_cons, bind_read_eq_ok] at done
                    obtain ⟨list, between, read, _, _, closed, done⟩ := done
                    cases done
                    exact .array rfl rfl read closed rfl
            · split at done
              · next isBrace =>
                  subst isBrace
                  cases depth with
                  | zero => cases done
                  | succ inner =>
                      simp only [skipOne_bind, rounds_bind, List.tail_cons, bind_read_eq_ok] at done
                      obtain ⟨members, between, read, done⟩ := done
                      cases done
                      exact .object rfl rfl read rfl rfl
              · cases done

/-! ## First bytes and lengths -/

def Begins (text : Bytes) : Prop :=
  ∃ byte tail, text = byte :: tail ∧ isBlank byte = false ∧ byte ≠ closeBracket

theorem PlainText.begins {text rest : Bytes} {held : Value} (form : PlainText text held rest) :
    Begins text := by
  cases form with
  | null => exact ⟨110, _, rfl, by decide, by decide⟩
  | true => exact ⟨116, _, rfl, by decide, by decide⟩
  | false => exact ⟨102, _, rfl, by decide, by decide⟩
  | number form =>
      obtain ⟨byte, tail, text, starts⟩ := form.head
      have apart := startsNumber_cases starts
      exact ⟨byte, tail, text, apart.1, apart.2.1⟩
  | string => exact ⟨quote, _, rfl, by decide, by decide⟩

theorem ValueText.begins {depth : Nat} {text rest : Bytes} {held : Value}
    (form : ValueText depth text held rest) : Begins text := by
  cases depth with
  | zero => exact PlainText.begins form
  | succ depth =>
      cases form with
      | plain form => exact form.begins
      | array form => exact ⟨openBracket, _, rfl, by decide, by decide⟩
      | object form => exact ⟨openBrace, _, rfl, by decide, by decide⟩

theorem PlainText.length_le {text rest : Bytes} {held : Value} (form : PlainText text held rest) :
    rest.length ≤ text.length := by
  have behind (front : Bytes) : rest.length ≤ (front ++ rest).length := by
    rw [List.length_append]
    omega
  cases form with
  | null => exact behind _
  | true => exact behind _
  | false => exact behind _
  | number form => cases form <;> exact behind _
  | string form =>
      obtain ⟨bytes, contained, -⟩ := form
      have shorter := contained.length_lt
      rw [List.length_cons]
      omega

theorem MemberText.length_le {form : Bytes → Value → Bytes → Prop}
    (shortens : ∀ {text rest : Bytes} {found : Value}, form text found rest →
      rest.length ≤ text.length)
    {text rest : Bytes} {found : String × Value} (front : MemberText form text found rest) :
    rest.length ≤ text.length := by
  cases front with
  | intro named colons inner valued =>
      obtain ⟨bytes, contained, -⟩ := named
      have name := contained.length_lt
      have before := colons.length_le
      have behind := inner.length_le
      have last := shortens valued
      simp only [List.length_cons] at before ⊢
      omega

theorem ValueText.length_le {depth : Nat} {text rest : Bytes} {held : Value}
    (form : ValueText depth text held rest) : rest.length ≤ text.length := by
  induction depth generalizing text held rest with
  | zero => exact PlainText.length_le form
  | succ depth ih =>
      cases form with
      | plain form => exact form.length_le
      | array form =>
          have shorter := (form.length_le ih).1
          rw [List.length_cons]
          omega
      | object form =>
          have shorter := (form.length_le (MemberText.length_le ih)).1
          rw [List.length_cons]
          omega

/-! ## The reader of values -/

theorem value_spaced (depth : Nat) {text rest : Bytes} (spaced : Spaced text rest) :
    value depth text = value depth rest := by
  rw [value.eq_def]
  exact spaced.peekSolid_bind _

theorem value_plain (depth : Nat) {text rest : Bytes} {held : Value}
    (form : PlainText text held rest) (ends : Ends rest) :
    value depth text = .ok (held, rest) := by
  cases form with
  | null => exact rereads_null depth rest ends
  | true => exact rereads_bool depth true rest ends
  | false => exact rereads_bool depth false rest ends
  | number form =>
      obtain ⟨byte, tail, rfl, starts⟩ := form.head
      obtain ⟨solid, -, other⟩ := startsNumber_cases starts
      rw [value_number depth starts solid other, bind_read ((number_eq_ok_iff ends).2 form)]
      rfl
  | string form =>
      rw [value_string, bind_read (quotedText_eq_ok_iff.2 form)]
      rfl

theorem closeList_eq_ok {text rest : Bytes} {found : Unit}
    (done : closeList (closeBracket :: text) = .ok (found, rest)) : text = rest := by
  cases (closeList_read text).symm.trans done
  rfl

theorem value_solid {depth : Nat} {text rest : Bytes} {found : Value} (ends : Ends rest)
    (done : value depth text = .ok (found, rest)) :
    ∃ solid, Spaced text solid ∧ ValueRead depth solid found rest := by
  rcases spaced_cases text with ⟨byte, more, spaced, solid⟩ | spaced
  · rw [value_spaced depth spaced] at done
    exact ⟨_, spaced, value_cases solid ends done⟩
  · rw [value_spaced depth spaced, value.eq_def] at done
    cases done

/-- What the reader takes off the front of a text, up to where no number goes on, is a value of the
grammar behind blanks. -/
theorem value_eq_ok_iff {depth : Nat} {text rest : Bytes} {found : Value} (ends : Ends rest) :
    value depth text = .ok (found, rest) ↔
      ∃ solid, Spaced text solid ∧ ValueText depth solid found rest := by
  induction depth generalizing text rest found with
  | zero =>
      constructor
      · intro done
        obtain ⟨solid, spaced, read⟩ := value_solid ends done
        cases read with
        | plain form => exact ⟨solid, spaced, form⟩
        | array deep => cases deep
        | object deep => cases deep
      · rintro ⟨solid, spaced, form⟩
        rw [value_spaced 0 spaced]
        exact value_plain 0 form ends
  | succ depth ih =>
      constructor
      · intro done
        obtain ⟨solid, spaced, read⟩ := value_solid ends done
        refine ⟨solid, spaced, ?_⟩
        cases read with
        | plain form => exact .plain form
        | array deep opened read closed isFound =>
            cases deep
            subst opened isFound
            obtain ⟨behind, rfl, form⟩ := items_sound (fun ends taken => (ih ends).1 taken) read
            obtain rfl := closeList_eq_ok closed
            exact .array form
        | object deep opened read closed isFound =>
            cases deep
            subst opened isFound closed
            obtain ⟨members, behind, rfl, form, steps⟩ :=
              foldMembers_sound (follows_becomes ih) read
            rw [steps_becomes.1 steps]
            exact .object form
      · rintro ⟨solid, spaced, form⟩
        rw [value_spaced _ spaced]
        cases form with
        | plain form => exact value_plain _ form ends
        | @array more _ list form =>
            have enough : list.length < more.length + 1 :=
              Nat.lt_succ_of_le (form.length_le ValueText.length_le).2.1
            have read := items_complete
              (fun ends valued => (ih ends).2 ⟨_, .refl _, valued⟩)
              ValueText.begins form enough
            rw [value_array, bind_read read, bind_read (closeList_read rest)]
            rfl
        | @object more _ members form =>
            have enough : members.length < more.length + 1 :=
              Nat.lt_succ_of_le (form.length_le (MemberText.length_le ValueText.length_le)).2.1
            have follows : Follows (addMember (value depth)) (ValueText depth)
              (Becomes fun before name held => Members.insert name held before) :=
              follows_becomes ih
            have steps : Steps (Becomes fun before name held => Members.insert name held before) []
              members (Members.ofList members) := steps_becomes.2 rfl
            rw [value_object, bind_read (foldMembers_complete follows form steps enough)]
            rfl

end Bearer.Json
