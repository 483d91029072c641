import Bearer.Proofs.Json.Sorted

namespace Bearer.Json

open Reader

/-! ## The grammar -/

def Apart (members : List (String × Value)) : Prop := (members.map Prod.fst).Nodup

inductive DistinctNested (inner : Bytes → Value → Bytes → Prop) : Bytes → Value → Bytes → Prop where
  | plain {text rest : Bytes} {held : Value} (form : PlainText text held rest) :
      DistinctNested inner text held rest
  | array {text rest : Bytes} {items : List Value}
      (form : Elements closeBracket inner true text items rest) :
      DistinctNested inner (openBracket :: text) (.array items) rest
  | object {text rest : Bytes} {members : List (String × Value)}
      (form : Elements closeBrace (MemberText inner) true text members rest) (apart : Apart members) :
      DistinctNested inner (openBrace :: text) (.object (Members.ofList members)) rest

def DistinctText : Nat → Bytes → Value → Bytes → Prop
  | 0 => PlainText
  | depth + 1 => DistinctNested (DistinctText depth)

inductive DistinctObject (text : Bytes) (members : List (String × Value)) : Prop where
  | intro {behind rest : Bytes} (spaced : Spaced text (openBrace :: behind))
      (form : Elements closeBrace (MemberText (DistinctText (maxDepth - 1))) true behind members rest)
      (apart : Apart members) (blank : Blank rest)

/-! ## These are texts of values -/

theorem Elements.mono {α : Type} {closing : UInt8} {element wider : Bytes → α → Bytes → Prop}
    (widens : ∀ {text rest : Bytes} {found : α}, element text found rest → wider text found rest)
    {first : Bool} {text rest : Bytes} {list : List α}
    (form : Elements closing element first text list rest) :
    Elements closing wider first text list rest := by
  induction form with
  | close first spaced => exact .close first spaced
  | first spaced front _ ih => exact .first spaced (widens front) ih
  | next separated spaced front _ ih => exact .next separated spaced (widens front) ih

theorem MemberText.mono {form wider : Bytes → Value → Bytes → Prop}
    (widens : ∀ {text rest : Bytes} {found : Value}, form text found rest → wider text found rest)
    {text rest : Bytes} {found : String × Value} (front : MemberText form text found rest) :
    MemberText wider text found rest := by
  cases front with
  | intro named colons spaced valued => exact .intro named colons spaced (widens valued)

theorem DistinctText.valueText {depth : Nat} {text rest : Bytes} {held : Value}
    (form : DistinctText depth text held rest) : ValueText depth text held rest := by
  induction depth generalizing text held rest with
  | zero => exact form
  | succ depth ih =>
      cases form with
      | plain form => exact .plain form
      | array form => exact .array (form.mono ih)
      | object form _ => exact .object (form.mono (MemberText.mono ih))

/-! ## What is written -/

def Writes (form : Bytes → Value → Bytes → Prop) (held : Value) : Prop :=
  ∀ rest, form (Utf8.encodeChars held.chars ++ rest) held rest

theorem plainText_chars {depth : Nat} {held : Value} (exact : Exact depth held) :
    Writes PlainText held ∨ (∃ items, held = .array items) ∨ ∃ members, held = .object members := by
  cases held with
  | null => exact .inl .null
  | bool truth =>
      cases truth with
      | true => exact .inl .true
      | false => exact .inl .false
  | number held =>
      cases held with
      | int held =>
          have whole : Whole held := by cases depth <;> exact exact
          refine .inl fun rest => .number ?_
          rw [Value.chars]
          exact .whole whole rest
      | float held => cases depth <;> exact exact.elim
  | string text =>
      refine .inl fun rest => ?_
      rw [Value.chars, encodeChars_stringChars]
      exact .string (quotedText_eq_ok_iff.1 (quotedText_read text rest))
  | array items => exact .inr (.inl ⟨items, rfl⟩)
  | object members => exact .inr (.inr ⟨members, rfl⟩)

section Parts

variable {inner : Bytes → Value → Bytes → Prop}

theorem elements_itemsChars {items : List Value} (writes : ∀ item ∈ items, Writes inner item)
    (rest : Bytes) : Elements closeBracket inner false
      (Utf8.encodeChars (itemsChars items) ++ closeBracket :: rest) items rest := by
  induction items with
  | nil => exact .close false (.refl _)
  | cons item items ih =>
      rw [itemsChars, List.cons_append, Utf8.encodeChars_cons, encodeChar_comma,
        List.singleton_append, Utf8.encodeChars_append, List.cons_append, List.append_assoc]
      exact .next (.refl _) (.refl _) (writes item List.mem_cons_self _)
        (ih fun other inside => writes other (List.mem_cons_of_mem _ inside))

theorem writes_array {items : List Value} (writes : ∀ item ∈ items, Writes inner item) :
    Writes (DistinctNested inner) (.array items) := by
  intro rest
  cases items with
  | nil => exact .array (.close true (.refl _))
  | cons item items =>
      simp only [Value.chars, List.cons_append, Utf8.encodeChars_cons, Utf8.encodeChars_append,
        Utf8.encodeChars_nil, encodeChar_openBracket, encodeChar_closeBracket, List.nil_append,
        List.append_assoc]
      exact .array (.first (.refl _) (writes item List.mem_cons_self _)
        (elements_itemsChars (fun other inside => writes other (List.mem_cons_of_mem _ inside)) rest))

theorem memberText_compact {name : String} {held : Value} (writes : Writes inner held)
    (rest : Bytes) :
    MemberText inner (Layout.compact.member name held ++ rest) (name, held) rest := by
  simp only [Layout.member, Layout.compact, List.nil_append, List.cons_append, List.append_assoc]
  exact .intro (quotedText_eq_ok_iff.1 (quotedText_read name _)) (.refl _) (.refl _) (writes rest)

theorem elements_following {members : List (String × Value)}
    (writes : ∀ member ∈ members, Writes inner member.2) (rest : Bytes) :
    Elements closeBrace (MemberText inner) false
      (Layout.compact.following members ++ closeBrace :: rest) members rest := by
  induction members with
  | nil => exact .close false (.refl _)
  | cons member members ih =>
      obtain ⟨name, held⟩ := member
      rw [Layout.following, List.cons_append, List.append_assoc]
      exact .next (.refl _) (.refl _) (memberText_compact (writes _ List.mem_cons_self) _)
        (ih fun other inside => writes other (List.mem_cons_of_mem _ inside))

theorem elements_members {members : List (String × Value)}
    (writes : ∀ member ∈ members, Writes inner member.2) (rest : Bytes) :
    Elements closeBrace (MemberText inner) true
      (Layout.compact.members members ++ closeBrace :: rest) members rest := by
  cases members with
  | nil => exact .close true (.refl _)
  | cons member members =>
      obtain ⟨name, held⟩ := member
      rw [Layout.members, List.append_assoc]
      exact .first (.refl _) (memberText_compact (writes _ List.mem_cons_self) _)
        (elements_following (fun other inside => writes other (List.mem_cons_of_mem _ inside)) rest)

theorem writes_object {members : Members} (sorted : members.Sorted)
    (writes : ∀ member ∈ members, Writes inner member.2) :
    Writes (DistinctNested inner) (.object members) := by
  intro rest
  have form := DistinctNested.object (elements_members writes rest) sorted.names_nodup
  rw [sorted.ofList_eq] at form
  rwa [encodeChars_object, List.cons_append, List.append_assoc]

end Parts

theorem distinctText_chars {depth : Nat} {held : Value} (exact : Exact depth held) :
    Writes (DistinctText depth) held := by
  induction depth generalizing held with
  | zero =>
      rcases plainText_chars exact with plain | ⟨items, rfl⟩ | ⟨members, rfl⟩
      · exact plain
      · exact exact.elim
      · exact exact.elim
  | succ depth ih =>
      rcases plainText_chars exact with plain | ⟨items, rfl⟩ | ⟨members, rfl⟩
      · exact fun rest => .plain (plain rest)
      · exact writes_array fun item inside => ih (exact item inside)
      · exact writes_object exact.1 fun member inside => ih (exact.2 member inside)

theorem elements_compact {members : List (String × Value)}
    (exact : ∀ member ∈ members, Exact (maxDepth - 1) member.2) :
    ∃ behind, Utf8.encode (Value.object members).compact = openBrace :: behind ∧
      Elements closeBrace (MemberText (DistinctText (maxDepth - 1))) true behind members [] := by
  refine ⟨_, ?_, elements_members (fun member inside => distinctText_chars (exact member inside)) []⟩
  rw [Value.compact, Utf8.encode_ofList, encodeChars_object]

theorem objectText_compact {members : List (String × Value)}
    (exact : ∀ member ∈ members, Exact (maxDepth - 1) member.2) :
    ObjectText (Utf8.encode (Value.object members).compact) members := by
  obtain ⟨behind, isText, form⟩ := elements_compact exact
  rw [isText]
  exact .intro (.refl _) (form.mono (MemberText.mono DistinctText.valueText)) blank_nil

theorem distinctObject_compact {members : List (String × Value)} (apart : Apart members)
    (exact : ∀ member ∈ members, Exact (maxDepth - 1) member.2) :
    DistinctObject (Utf8.encode (Value.object members).compact) members := by
  obtain ⟨behind, isText, form⟩ := elements_compact exact
  rw [isText]
  exact .intro (.refl _) form apart blank_nil

/-! ## What is read -/

inductive Floatless : Value → Prop where
  | null : Floatless .null
  | bool (truth : Bool) : Floatless (.bool truth)
  | int (value : Int) : Floatless (.number (.int value))
  | string (text : String) : Floatless (.string text)
  | array {items : List Value} (each : ∀ item ∈ items, Floatless item) : Floatless (.array items)
  | object {members : Members} (each : ∀ member ∈ members, Floatless member.2) :
      Floatless (.object members)

theorem PlainText.exact {text rest : Bytes} {held : Value} (form : PlainText text held rest)
    (floatless : Floatless held) (depth : Nat) : Exact depth held := by
  cases form with
  | null => cases depth <;> trivial
  | true => cases depth <;> trivial
  | false => cases depth <;> trivial
  | string => cases depth <;> trivial
  | number form =>
      cases floatless with
      | int value => cases depth <;> exact form.whole_of_int

theorem Elements.text_of_mem {α : Type} {closing : UInt8} {element : Bytes → α → Bytes → Prop}
    {first : Bool} {text rest : Bytes} {list : List α}
    (form : Elements closing element first text list rest) {found : α} (inside : found ∈ list) :
    ∃ front behind, element front found behind := by
  induction form with
  | close => cases inside
  | first _ front _ ih =>
      rcases List.mem_cons.1 inside with rfl | inside
      · exact ⟨_, _, front⟩
      · exact ih inside
  | next _ _ front _ ih =>
      rcases List.mem_cons.1 inside with rfl | inside
      · exact ⟨_, _, front⟩
      · exact ih inside

theorem Elements.value_of_mem {closing : UInt8} {form : Bytes → Value → Bytes → Prop} {first : Bool}
    {text rest : Bytes} {members : List (String × Value)}
    (elements : Elements closing (MemberText form) first text members rest)
    {member : String × Value} (inside : member ∈ members) :
    ∃ front behind, form front member.2 behind := by
  obtain ⟨_, _, named⟩ := elements.text_of_mem inside
  cases named with
  | intro _ _ _ valued => exact ⟨_, _, valued⟩

theorem ValueText.exact {depth : Nat} {text rest : Bytes} {held : Value}
    (form : ValueText depth text held rest) (floatless : Floatless held) : Exact depth held := by
  induction depth generalizing text held rest with
  | zero => exact PlainText.exact form floatless 0
  | succ depth ih =>
      cases form with
      | plain form => exact form.exact floatless (depth + 1)
      | array form =>
          cases floatless with
          | array each =>
              intro item inside
              obtain ⟨_, _, valued⟩ := form.text_of_mem inside
              exact ih valued (each item inside)
      | object form =>
          cases floatless with
          | object each =>
              refine ⟨Members.sorted_ofList _, fun member inside => ?_⟩
              obtain ⟨_, _, valued⟩ := form.value_of_mem (Members.mem_of_mem_ofList inside)
              exact ih valued (each member inside)

end Bearer.Json
