import Bearer.Proofs.Outcome
import Bearer.Proofs.Settings.Merge
import Bearer.Settings.Reader

namespace Bearer.Settings.Reader

open Named (Sorted)

variable {α β : Type}

structure Sets (parts : List (Part α)) (name : String) (reader : Reader β) (get : α → β)
    (update : α → β → α) : Prop where
  found : parts.find? (·.name == name) = some (.of name reader update)
  get_update (held : α) (value : β) : get (update held value) = value
  update_get (held : α) : update held (get held) = held
  update_update (held : α) (value value' : β) :
    update (update held value) value' = update held value'
  apart : ∀ part ∈ parts, part.name ≠ name → ∀ held value path tree,
    part.update (update held value) path tree = (part.update held path tree).map (update · value)

theorem apart_of {γ : Type} {reader : Reader γ} {name : String} {change : α → γ → α}
    {update : α → β → α}
    (swap : ∀ held value other, change (update held value) other = update (change held other) value)
    (held : α) (value : β) (path : List String) (tree : Tree) :
    (Part.of name reader change).update (update held value) path tree =
      ((Part.of name reader change).update held path tree).map (update · value) := by
  simp only [Part.of]
  cases reader path tree with
  | error fault => rfl
  | ok other => exact congrArg Except.ok (swap held value other)

section

variable {parts : List (Part α)} {name : String} {reader : Reader β} {get : α → β}
  {update : α → β → α} (sets : Sets parts name reader get update) {path : List String}

include sets

theorem updateMember_self (held : α) (tree : Tree) : updateMember parts path held (name, tree) =
    (reader (path ++ [name]) tree).map (update held) := by
  simp only [updateMember, sets.found, Part.of]

theorem updateMember_other {member : String × Tree} (other : member.1 ≠ name) (held : α)
    (value : β) : updateMember parts path (update held value) member =
      (updateMember parts path held member).map (update · value) := by
  unfold updateMember
  cases isPart : parts.find? (·.name == member.1) with
  | none => rfl
  | some part =>
      have named : part.name = member.1 := by simpa using List.find?_some isPart
      exact sets.apart part (List.mem_of_find?_eq_some isPart) (named ▸ other) held value _ _

theorem foldlM_others {members : Members} (others : ∀ member ∈ members, member.1 ≠ name) (held : α)
    (value : β) : members.foldlM (updateMember parts path) (update held value) =
      (members.foldlM (updateMember parts path) held).map (update · value) := by
  induction members generalizing held with
  | nil => rfl
  | cons member members ih =>
      obtain ⟨other, others⟩ := List.forall_mem_cons.1 others
      rw [List.foldlM_cons, List.foldlM_cons, updateMember_other sets other]
      cases updateMember parts path held member with
      | error fault => rfl
      | ok next => exact ih others next

theorem foldlM_insert {members : Members} (sorted : Sorted members) {held result : α}
    (read : members.foldlM (updateMember parts path) held = .ok result) (tree : Tree) :
    (members.insert name tree).foldlM (updateMember parts path) held =
      (reader (path ++ [name]) tree).map (update result) := by
  obtain ⟨front, back, placed, origin, -, others⟩ := Named.place_split sorted name tree
  rw [Members.insert_eq_place, placed, List.foldlM_append]
  -- What is read behind the member does not depend on the field.
  suffices later : ∃ middle last, front.foldlM (updateMember parts path) held = .ok middle ∧
      back.foldlM (updateMember parts path) middle = .ok last ∧
      ∀ value, update last value = update result value by
    obtain ⟨middle, last, inFront, behind, same⟩ := later
    rw [inFront, ok_bind, List.foldlM_cons, updateMember_self sets]
    cases reader (path ++ [name]) tree with
    | error fault => rfl
    | ok value =>
        change back.foldlM (updateMember parts path) (update middle value) = _
        rw [foldlM_others sets others, behind]
        exact congrArg Except.ok (same value)
  rcases origin with rfl | ⟨old, rfl⟩
  · rw [List.foldlM_append, bind_eq_ok] at read
    obtain ⟨middle, inFront, behind⟩ := read
    exact ⟨middle, result, inFront, behind, fun _ => rfl⟩
  · rw [List.foldlM_append, bind_eq_ok] at read
    obtain ⟨middle, inFront, further⟩ := read
    rw [List.foldlM_cons, bind_eq_ok, updateMember_self sets] at further
    obtain ⟨changed, here, behind⟩ := further
    cases kept : reader (path ++ [name]) old with
    | error fault =>
        rw [kept] at here
        cases here
    | ok value =>
        rw [kept] at here
        cases here
        rw [foldlM_others sets others] at behind
        cases last : back.foldlM (updateMember parts path) middle with
        | error fault =>
            rw [last] at behind
            cases behind
        | ok last' =>
            rw [last] at behind
            cases behind
            exact ⟨middle, last', inFront, last, fun value' => (sets.update_update _ _ _).symm⟩

theorem get_of_foldlM {members : Members} (sorted : Sorted members) {held result : α}
    (read : members.foldlM (updateMember parts path) held = .ok result) :
    match members.lookup name with
    | some tree => reader (path ++ [name]) tree = .ok (get result)
    | none => get result = get held := by
  cases isHeld : members.lookup name with
  | some tree =>
      -- To insert the member once more changes nothing, and shows it to be the last one set.
      have same : members.insert name tree = members := by
        refine (Members.sorted_insert sorted name tree).ext sorted fun other => ?_
        rw [Members.lookup_insert]
        split
        · next here => rw [here, isHeld]
        · rfl
      have again := foldlM_insert sets sorted read tree
      rw [same, read] at again
      dsimp only
      cases kept : reader (path ++ [name]) tree with
      | error fault =>
          rw [kept] at again
          cases again
      | ok value =>
          rw [kept] at again
          have result_eq : result = update result value := Except.ok.inj again
          rw [result_eq, sets.get_update]
  | none =>
      have others : ∀ member ∈ members, member.1 ≠ name := by
        rintro ⟨other, tree⟩ member rfl
        rw [sorted.lookup_eq_some_iff.2 member] at isHeld
        cases isHeld
      have again : members.foldlM (updateMember parts path) (update held (get held)) = _ :=
        foldlM_others sets others held (get held)
      rw [sets.update_get, read] at again
      have result_eq : result = update result (get held) := Except.ok.inj again
      dsimp only
      rw [result_eq, sets.get_update]

end

/-! ## Sections -/

/-- What stays of a section when a member is placed over it: a section that is given as a list has no
members, and so gives way as a whole. -/
def kept (tree : Tree) (defaults result : α) : α :=
  match tree with
  | .list _ _ => defaults
  | _ => result

def HasField (section_ : Reader α) (defaults : α) (name : String) (reader : Reader β) (get : α → β)
    (update : α → β → α) : Prop :=
  ∃ type parts, section_ = record type parts defaults ∧ Sets parts name reader get update

variable {γ : Type} {section_ : Reader α} {defaults result : α} {name name' : String}
  {reader : Reader β} {get : α → β} {update : α → β → α} {leafReader : Reader γ} {get' : β → γ}
  {update' : β → γ → β} {path : List String} {tree : Tree}

theorem HasField.merge_nested (field : HasField section_ defaults name reader get update)
    (sorted : Sorted tree.members) (read : section_ path tree = .ok result) (source : Source)
    (rest : List String) (leaf : Tree) :
    section_ path (tree.merge (.nested source (name :: rest) leaf)) =
      (reader (path ++ [name]) (.layered (tree.member? name) (.nested source rest leaf))).map
        (update (kept tree defaults result)) := by
  obtain ⟨type, parts, rfl, sets⟩ := field
  rw [Tree.merge_nested]
  cases tree with
  | table _ members => exact foldlM_insert sets sorted read _
  | list _ items =>
      have empty : ([] : Members).foldlM (updateMember parts path) defaults = .ok defaults := rfl
      exact foldlM_insert sets sorted empty _
  | scalar => cases read

theorem HasField.get_eq (field : HasField section_ defaults name reader get update)
    (isTable : tree.IsTable) (read : section_ path tree = .ok result) (source : Source)
    (empty : reader (path ++ [name]) (.table source []) = .ok (get defaults)) :
    reader (path ++ [name]) ((tree.member? name).getD (.table source [])) = .ok (get result) := by
  obtain ⟨type, parts, rfl, sets⟩ := field
  obtain ⟨_, members, rfl, sorted⟩ := isTable
  have found := get_of_foldlM sets sorted read
  change reader _ ((members.lookup name).getD _) = _
  cases isHeld : members.lookup name with
  | some held =>
      rw [isHeld] at found
      exact found
  | none =>
      rw [isHeld] at found
      exact empty.trans (congrArg Except.ok found.symm)

theorem HasField.merge_nested₂ (field : HasField section_ defaults name reader get update)
    (inner : HasField reader (get defaults) name' leafReader get' update')
    (isTable : tree.IsTable) (sorted : Tree.SortedAlong [name, name'] tree)
    (read : section_ path tree = .ok result) (source : Source) (leaf : Tree) :
    let held := (tree.member? name).getD (.table source [])
    section_ path (tree.merge (.nested source [name, name'] leaf)) =
      ((leafReader (path ++ [name] ++ [name']) (.layered (held.member? name') leaf)).map
        (update' (kept held (get defaults) (get result)))).map (update result) := by
  intro held
  have empty : reader (path ++ [name]) (.table source []) = .ok (get defaults) := by
    obtain ⟨type, parts, rfl, -⟩ := inner
    rfl
  have isHeld : reader (path ++ [name]) held = .ok (get result) :=
    field.get_eq isTable read source empty
  have ordered : Sorted held.members := by
    change Sorted ((tree.member? name).getD (.table source [])).members
    cases isMember : tree.member? name with
    | some found => exact (sorted.2 found isMember).1
    | none => exact List.Pairwise.nil
  have stays : kept tree defaults result = result := by
    obtain ⟨_, members, rfl, -⟩ := isTable
    rfl
  rw [field.merge_nested isTable.sorted read, stays, Tree.layered_nested (List.cons_ne_nil _ _),
    inner.merge_nested ordered isHeld]
  rfl

end Bearer.Settings.Reader
