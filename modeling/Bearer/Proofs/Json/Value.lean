import Bearer.Json.Reader.Value
import Bearer.Proofs.Json.Members

namespace Bearer.Json

namespace Members

def Sorted (members : Members) : Prop := members.Pairwise fun left right => left.1 < right.1

theorem insert_last {name : String} (value : Value) {members : Members}
    (last : ∀ member ∈ members, member.1 < name) :
    members.insert name value = members ++ [(name, value)] := by
  induction members with
  | nil => rfl
  | cons member members ih =>
      obtain ⟨other, held⟩ := member
      have before : other < name := last _ List.mem_cons_self
      rw [insert, if_neg (String.lt_asymm before), if_neg (String.ne_of_lt before).symm,
        ih fun member inside => last member (List.mem_cons_of_mem _ inside), List.cons_append]

theorem lt_of_sorted_append {before rest : Members} {name : String} {value : Value}
    (sorted : Sorted (before ++ [(name, value)] ++ rest)) : ∀ member ∈ before, member.1 < name :=
  fun member inside =>
    (List.pairwise_append.1 (List.pairwise_append.1 sorted).1).2.2 member inside _
      List.mem_cons_self

end Members

/-- The values whose texts read back: the integers fit into 64 bits, there are no floating point
numbers, members are in order, and no more than `depth` lists and objects lie in one another. -/
def Exact : Nat → Value → Prop
  | _, .null => True
  | _, .bool _ => True
  | _, .number (.int value) => Reader.Whole value
  | _, .number (.float _) => False
  | _, .string _ => True
  | 0, .array _ => False
  | depth + 1, .array items => ∀ item ∈ items, Exact depth item
  | 0, .object _ => False
  | depth + 1, .object members =>
      Members.Sorted members ∧ ∀ member ∈ members, Exact depth member.2

namespace Reader

def Rereads (depth : Nat) (held : Value) : Prop :=
  ∀ rest, Ends rest → value depth (Utf8.encodeChars held.chars ++ rest) = .ok (held, rest)

/-! ## Kinds of values -/

theorem value_cons (depth : Nat) {byte : UInt8} (solid : isBlank byte = false) (rest : Bytes) :
    value depth (byte :: rest) = (
      if byte = 110 then do skipOne; word [117, 108, 108]; return Value.null
      else if byte = 116 then do skipOne; word [114, 117, 101]; return Value.bool true
      else if byte = 102 then do skipOne; word [97, 108, 115, 101]; return Value.bool false
      else if startsNumber byte then return Value.number (← number)
      else if byte = quote then do skipOne; return Value.string (← quotedText)
      else if byte = openBracket then
        match depth with
        | 0 => failAhead .tooDeep
        | depth + 1 => do
            skipOne
            let list ← items (value depth) (← rounds) true
            closeList
            return Value.array list
      else if byte = openBrace then
        match depth with
        | 0 => failAhead .tooDeep
        | depth + 1 => do
            skipOne
            let members ← foldMembers (addMember (value depth)) (← rounds) true []
            skipOne
            return Value.object members
      else failAhead .expectedValue : Reader Value) (byte :: rest) := by
  rw [value.eq_def]
  exact peekSolid_bind_cons solid _

theorem value_null (depth : Nat) (rest : Bytes) :
    value depth (110 :: rest) = (do word [117, 108, 108]; return Value.null) rest := by
  rw [value_cons depth (by decide)]
  rfl

theorem value_true (depth : Nat) (rest : Bytes) :
    value depth (116 :: rest) = (do word [114, 117, 101]; return Value.bool true) rest := by
  rw [value_cons depth (by decide)]
  rfl

theorem value_false (depth : Nat) (rest : Bytes) :
    value depth (102 :: rest) = (do word [97, 108, 115, 101]; return Value.bool false) rest := by
  rw [value_cons depth (by decide)]
  rfl

theorem value_number (depth : Nat) {byte : UInt8} (starts : startsNumber byte = true)
    (solid : isBlank byte = false) (other : byte ≠ 110 ∧ byte ≠ 116 ∧ byte ≠ 102) (rest : Bytes) :
    value depth (byte :: rest) = (do return Value.number (← number)) (byte :: rest) := by
  rw [value_cons depth solid, if_neg other.1, if_neg other.2.1, if_neg other.2.2, if_pos starts]

theorem value_string (depth : Nat) (rest : Bytes) :
    value depth (quote :: rest) = (do return Value.string (← quotedText)) rest := by
  rw [value_cons depth (by decide)]
  rfl

theorem value_array (depth : Nat) (rest : Bytes) :
    value (depth + 1) (openBracket :: rest) = (do
      let list ← items (value depth) (rest.length + 1) true
      closeList
      return Value.array list) rest := by
  rw [value_cons (depth + 1) (by decide)]
  rfl

theorem value_object (depth : Nat) (rest : Bytes) :
    value (depth + 1) (openBrace :: rest) = (do
      let members ← foldMembers (addMember (value depth)) (rest.length + 1) true []
      skipOne
      return Value.object members) rest := by
  rw [value_cons (depth + 1) (by decide)]
  rfl

/-! ## Values without parts -/

theorem rereads_null (depth : Nat) : Rereads depth .null := by
  intro rest _
  change value depth (110 :: ([117, 108, 108] ++ rest)) = _
  rw [value_null, bind_read (word_read _ rest), pure_read]

theorem rereads_bool (depth : Nat) (truth : Bool) : Rereads depth (.bool truth) := by
  intro rest _
  cases truth with
  | true =>
      change value depth (116 :: ([114, 117, 101] ++ rest)) = _
      rw [value_true, bind_read (word_read _ rest), pure_read]
  | false =>
      change value depth (102 :: ([97, 108, 115, 101] ++ rest)) = _
      rw [value_false, bind_read (word_read _ rest), pure_read]

theorem startsNumber_cases {byte : UInt8} (starts : startsNumber byte = true) :
    isBlank byte = false ∧ byte ≠ closeBracket ∧ byte ≠ 110 ∧ byte ≠ 116 ∧ byte ≠ 102 := by
  have number : byte = 45 ∨ isDigit byte = true := by simpa [startsNumber] using starts
  rcases number with rfl | digit
  · decide
  · have bounds := isDigit_iff.1 digit
    have apart {other : UInt8} (far : other.toNat < 48 ∨ 57 < other.toNat) : byte ≠ other := by
      rintro rfl
      omega
    refine ⟨?_, apart (by decide), apart (by decide), apart (by decide), apart (by decide)⟩
    simp only [isBlank, Bool.or_eq_false_iff, beq_eq_false_iff_ne]
    exact ⟨⟨⟨apart (by decide), apart (by decide)⟩, apart (by decide)⟩, apart (by decide)⟩

theorem rereads_int (depth : Nat) {held : Int} (whole : Whole held) :
    Rereads depth (.number (.int held)) := by
  intro rest ends
  obtain ⟨byte, others, text, starts⟩ := number_head held
  obtain ⟨solid, -, other⟩ := startsNumber_cases starts
  have read := number_read whole ends
  rw [Value.chars]
  rw [text, List.cons_append] at read ⊢
  rw [value_number depth starts solid other]
  exact bind_read read _

theorem rereads_string (depth : Nat) (text : String) : Rereads depth (.string text) := by
  intro rest _
  rw [Value.chars, encodeChars_stringChars, List.cons_append, value_string,
    bind_read (quotedText_read text rest), pure_read]

/-! ## Lists -/

theorem chars_head {depth : Nat} {held : Value} (exact : Exact depth held) : ∃ byte rest,
    Utf8.encodeChars held.chars = byte :: rest ∧ isBlank byte = false ∧ byte ≠ closeBracket := by
  cases held with
  | null => exact ⟨110, _, rfl, by decide, by decide⟩
  | bool truth =>
      cases truth with
      | true => exact ⟨116, _, rfl, by decide, by decide⟩
      | false => exact ⟨102, _, rfl, by decide, by decide⟩
  | number held =>
      cases held with
      | int held =>
          obtain ⟨byte, rest, text, starts⟩ := number_head held
          have apart := startsNumber_cases starts
          exact ⟨byte, rest, by rw [Value.chars, text], apart.1, apart.2.1⟩
      | float held => cases depth <;> exact exact.elim
  | string text =>
      exact ⟨quote, _, by rw [Value.chars, encodeChars_stringChars], by decide, by decide⟩
  | array items =>
      cases items with
      | nil => exact ⟨openBracket, _, rfl, by decide, by decide⟩
      | cons item items => exact ⟨openBracket, _, rfl, by decide, by decide⟩
  | object members =>
      cases members with
      | nil => exact ⟨openBrace, _, rfl, by decide, by decide⟩
      | cons member members => exact ⟨openBrace, _, rfl, by decide, by decide⟩

theorem length_le_itemsChars (list : List Value) :
    list.length ≤ (Utf8.encodeChars (itemsChars list)).length := by
  induction list with
  | nil => exact Nat.le_refl 0
  | cons item list ih =>
      rw [itemsChars, List.cons_append, Utf8.encodeChars_cons, Utf8.encodeChars_append]
      have one : (String.utf8EncodeChar ',').length = 1 := by decide
      simp only [List.length_append, List.length_cons, one]
      omega

theorem ends_items (list : List Value) (rest : Bytes) :
    Ends (Utf8.encodeChars (itemsChars list) ++ closeBracket :: rest) := by
  cases list with
  | nil => exact ends_cons (by decide)
  | cons item list =>
      rw [itemsChars, List.cons_append, Utf8.encodeChars_cons]
      exact ends_cons (by decide)

theorem items_read {depth : Nat} {list : List Value} (exact : ∀ item ∈ list, Exact depth item)
    (rereads : ∀ item ∈ list, Rereads depth item) (rest : Bytes) {rounds : Nat}
    (enough : list.length < rounds) :
    items (value depth) rounds false (Utf8.encodeChars (itemsChars list) ++ closeBracket :: rest) =
      .ok (list, closeBracket :: rest) := by
  induction list generalizing rounds with
  | nil =>
      obtain ⟨rounds, rfl⟩ := Nat.exists_eq_succ_of_ne_zero (Nat.ne_zero_of_lt enough)
      exact items_end (moreItems_close false rest)
  | cons item list ih =>
      obtain ⟨rounds, rfl⟩ := Nat.exists_eq_succ_of_ne_zero (Nat.ne_zero_of_lt enough)
      have others := ih (fun other member => exact other (List.mem_cons_of_mem _ member))
        (fun other member => rereads other (List.mem_cons_of_mem _ member))
        (Nat.lt_of_succ_lt_succ enough)
      have head := rereads item List.mem_cons_self _ (ends_items list rest)
      obtain ⟨byte, more, text, solid, inside⟩ := chars_head (exact item List.mem_cons_self)
      rw [text, List.cons_append] at head
      simp only [itemsChars, List.cons_append, Utf8.encodeChars_cons, Utf8.encodeChars_append,
        encodeChar_comma, List.nil_append, List.append_assoc, text]
      exact items_round (moreItems_comma solid inside) head others

theorem items_read_first {depth : Nat} {item : Value} {list : List Value}
    (exact : ∀ other ∈ item :: list, Exact depth other)
    (rereads : ∀ other ∈ item :: list, Rereads depth other) (rest : Bytes) {rounds : Nat}
    (enough : list.length < rounds) :
    items (value depth) (rounds + 1) true (Utf8.encodeChars item.chars ++
      (Utf8.encodeChars (itemsChars list) ++ closeBracket :: rest)) =
        .ok (item :: list, closeBracket :: rest) := by
  have others := items_read (fun other member => exact other (List.mem_cons_of_mem _ member))
    (fun other member => rereads other (List.mem_cons_of_mem _ member)) rest enough
  have head := rereads item List.mem_cons_self _ (ends_items list rest)
  obtain ⟨byte, more, text, solid, inside⟩ := chars_head (exact item List.mem_cons_self)
  rw [text, List.cons_append] at head ⊢
  exact items_round (moreItems_first solid inside) head others

theorem rereads_array {depth : Nat} {list : List Value} (exact : ∀ item ∈ list, Exact depth item)
    (rereads : ∀ item ∈ list, Rereads depth item) : Rereads (depth + 1) (.array list) := by
  intro rest _
  cases list with
  | nil =>
      have none (rounds : Nat) : items (value depth) (rounds + 1) true (closeBracket :: rest) =
          .ok ([], closeBracket :: rest) := items_end (moreItems_close true rest)
      change value (depth + 1) (openBracket :: closeBracket :: rest) = _
      rw [value_array, bind_read (none _), bind_read (closeList_read rest), pure_read]
  | cons item list =>
      have few := length_le_itemsChars list
      have enough : list.length < (Utf8.encodeChars item.chars ++
          (Utf8.encodeChars (itemsChars list) ++ closeBracket :: rest)).length := by
        simp only [List.length_append, List.length_cons]
        omega
      simp only [Value.chars, List.cons_append, Utf8.encodeChars_cons, Utf8.encodeChars_append,
        Utf8.encodeChars_nil, encodeChar_openBracket, encodeChar_closeBracket, List.nil_append,
        List.append_assoc]
      rw [value_array, bind_read (items_read_first exact rereads rest enough),
        bind_read (closeList_read rest), pure_read]

/-! ## Objects -/

theorem encodeChars_membersChars (members : List (String × Value)) :
    Utf8.encodeChars (membersChars members) = Layout.compact.following members := by
  induction members with
  | nil => rfl
  | cons member members ih =>
      obtain ⟨name, held⟩ := member
      rw [membersChars]
      simp only [List.cons_append, Utf8.encodeChars_cons, Utf8.encodeChars_append,
        List.append_assoc, encodeChars_stringChars, ih, encodeChar_comma, encodeChar_colon]
      simp [Layout.following, Layout.member, Layout.compact]

theorem encodeChars_object (members : List (String × Value)) :
    Utf8.encodeChars (Value.object members).chars =
      openBrace :: (Layout.compact.members members ++ [closeBrace]) := by
  cases members with
  | nil => rfl
  | cons member members =>
      obtain ⟨name, held⟩ := member
      rw [Value.chars, Layout.members]
      simp only [List.cons_append, Utf8.encodeChars_cons, Utf8.encodeChars_append,
        List.append_assoc, encodeChars_stringChars, encodeChars_membersChars, encodeChar_openBrace,
        encodeChar_colon, encodeChar_closeBrace]
      simp [Layout.member, Layout.compact]

theorem takes_addMember {depth : Nat} (before : Members) {members : Members}
    (sorted : Members.Sorted (before ++ members))
    (rereads : ∀ member ∈ members, Rereads depth member.2) :
    Takes (addMember (value depth)) [] before members (before ++ members) := by
  induction members generalizing before with
  | nil =>
      rw [List.append_nil]
      exact .nil before
  | cons member members ih =>
      obtain ⟨name, held⟩ := member
      rw [List.append_cons] at sorted ⊢
      have last := Members.lt_of_sorted_append sorted
      refine .cons (fun rest ends => ?_)
        (ih _ sorted fun other inside => rereads other (List.mem_cons_of_mem _ inside))
      rw [List.nil_append, addMember, bind_read (readColon_read _),
        bind_read (rereads _ List.mem_cons_self rest ends), pure_read, Members.insert_last held last]

theorem rereads_object {depth : Nat} {members : Members} (sorted : members.Sorted)
    (rereads : ∀ member ∈ members, Rereads depth member.2) :
    Rereads (depth + 1) (.object members) := by
  intro rest _
  have takes : Takes (addMember (value depth)) Layout.compact.gap [] members members :=
    takes_addMember [] sorted rereads
  have enough : members.length <
      (Layout.compact.members members ++ ([] ++ closeBrace :: rest)).length + 1 := by
    have few := Layout.compact.length_members_le members
    simp only [List.length_append]
    omega
  have read := foldMembers_read Layout.compact takes blank_nil rest enough
  rw [encodeChars_object, List.cons_append, List.append_assoc, List.singleton_append, value_object]
  exact bind_read read _

/-! ## All values -/

theorem value_read (depth : Nat) (held : Value) (exact : Exact depth held) : Rereads depth held := by
  induction depth generalizing held with
  | zero =>
      cases held with
      | null => exact rereads_null 0
      | bool truth => exact rereads_bool 0 truth
      | number held =>
          cases held with
          | int held => exact rereads_int 0 exact
          | float held => exact exact.elim
      | string text => exact rereads_string 0 text
      | array items => exact exact.elim
      | object members => exact exact.elim
  | succ depth ih =>
      cases held with
      | null => exact rereads_null _
      | bool truth => exact rereads_bool _ truth
      | number held =>
          cases held with
          | int held => exact rereads_int _ exact
          | float held => exact exact.elim
      | string text => exact rereads_string _ text
      | array items =>
          exact rereads_array exact fun item member => ih item (exact item member)
      | object members =>
          exact rereads_object exact.1 fun member inside => ih member.2 (exact.2 member inside)

end Reader

end Bearer.Json
