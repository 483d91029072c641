import Bearer.Proofs.Named
import Bearer.Settings.Tree

namespace Bearer.Settings

open Named (Sorted)

/-! ## Members -/

namespace Members

theorem insert_eq_place (members : Members) (name : String) (tree : Tree) :
    members.insert name tree = Named.place name tree members := by
  induction members with
  | nil => rfl
  | cons member members ih => rw [insert, Named.place, ih]

theorem lookup_insert (members : Members) (name other : String) (tree : Tree) :
    (members.insert other tree).lookup name =
      if name = other then some tree else members.lookup name := by
  rw [insert_eq_place, Named.lookup_place]

theorem sorted_insert {members : Members} (sorted : Sorted members) (name : String) (tree : Tree) :
    Sorted (members.insert name tree) := by
  rw [insert_eq_place]
  exact sorted.place name tree

end Members

namespace Tree

def members : Tree → Members
  | .table _ members => members
  | _ => []

def member? (tree : Tree) (name : String) : Option Tree := tree.members.lookup name

def layered : Option Tree → Tree → Tree
  | some held, tree => held.merge tree
  | none, tree => tree

theorem layered_cases (held : Option Tree) (tree : Tree) : layered held tree = tree ∨
    ∃ source members members', tree = .table source members ∧
      layered held tree = .table source members' := by
  cases held with
  | none => exact .inl rfl
  | some held =>
      cases tree with
      | scalar => exact .inl rfl
      | list => exact .inl rfl
      | table source members => cases held <;> exact .inr ⟨source, members, _, rfl, rfl⟩

theorem merge_some (held : Option Tree) (tree : Tree) :
    Option.merge merge held (some tree) = some (layered held tree) := by cases held <;> rfl

theorem mergeMembers_cons (members : Members) (name : String) (tree : Tree)
    (rest : List (String × Tree)) : mergeMembers members ((name, tree) :: rest) =
      mergeMembers (members.insert name (layered (members.lookup name) tree)) rest := by
  rw [mergeMembers]
  cases members.lookup name <;> rfl

theorem sorted_mergeMembers {members : Members} (sorted : Sorted members) (later : Members) :
    Sorted (mergeMembers members later) := by
  induction later generalizing members with
  | nil => exact sorted
  | cons member later ih =>
      rw [mergeMembers_cons]
      exact ih (Members.sorted_insert sorted _ _)

theorem lookup_mergeMembers (members : Members) {later : Members} (sorted : Sorted later)
    (name : String) : (mergeMembers members later).lookup name =
      Option.merge merge (members.lookup name) (later.lookup name) := by
  induction later generalizing members with
  | nil =>
      rw [mergeMembers]
      cases members.lookup name <;> rfl
  | cons member later ih =>
      obtain ⟨other, tree⟩ := member
      obtain ⟨least, rest⟩ := List.pairwise_cons.1 sorted
      rw [mergeMembers_cons, ih _ rest, Members.lookup_insert, Named.lookup_cons]
      by_cases same : name = other
      · -- The name does not come again in what is left.
        subst same
        have absent : later.lookup name = none := by
          rw [List.lookup_eq_none_iff]
          intro further member
          exact bne_iff_ne.2 (String.ne_of_lt (least further member))
        rw [if_pos rfl, if_pos rfl, absent, merge_some]
        rfl
      · rw [if_neg same, if_neg same]

def IsTable (tree : Tree) : Prop := ∃ source members, tree = .table source members ∧ Sorted members

theorem merge_table (earlier : Tree) (source : Source) {later : Members} (sorted : Sorted later) :
    earlier.merge (.table source later) = .table source (mergeMembers earlier.members later) := by
  have alone : later = mergeMembers [] later := by
    refine sorted.ext (sorted_mergeMembers List.Pairwise.nil later) fun name => ?_
    rw [lookup_mergeMembers [] sorted name]
    cases later.lookup name <;> rfl
  cases earlier with
  | table _ members => rfl
  | scalar _ value => exact congrArg (Tree.table source) alone
  | list _ items => exact congrArg (Tree.table source) alone

theorem IsTable.sorted {tree : Tree} (isTable : tree.IsTable) : Sorted tree.members := by
  obtain ⟨source, members, rfl, sorted⟩ := isTable
  exact sorted

theorem IsTable.merge {earlier later : Tree} (isTable : later.IsTable)
    (sorted : Sorted earlier.members) : (earlier.merge later).IsTable := by
  obtain ⟨source, members, rfl, sorted'⟩ := isTable
  exact ⟨source, _, merge_table earlier source sorted', sorted_mergeMembers sorted members⟩

theorem member?_merge (earlier : Tree) {later : Tree} (isTable : later.IsTable) (name : String) :
    (earlier.merge later).member? name =
      Option.merge merge (earlier.member? name) (later.member? name) := by
  obtain ⟨source, members, rfl, sorted⟩ := isTable
  rw [merge_table earlier source sorted]
  exact lookup_mergeMembers _ sorted name

/-! ## A single setting -/

theorem nested_cons (source : Source) (name : String) (path : List String) (leaf : Tree) :
    nested source (name :: path) leaf = .table source [(name, nested source path leaf)] := rfl

theorem merge_nested (tree : Tree) (source : Source) (name : String) (path : List String)
    (leaf : Tree) : tree.merge (nested source (name :: path) leaf) = .table source
      (tree.members.insert name (layered (tree.member? name) (nested source path leaf))) := by
  rw [nested_cons, merge_table tree source (List.pairwise_singleton _ _), mergeMembers_cons]
  rfl

theorem member?_merge_nested (tree : Tree) (source : Source) (name other : String)
    (path : List String) (leaf : Tree) :
    (tree.merge (nested source (name :: path) leaf)).member? other =
      if other = name then some (layered (tree.member? name) (nested source path leaf))
      else tree.member? other := by
  rw [merge_nested]
  exact Members.lookup_insert _ _ _ _

def SortedAlong : List String → Tree → Prop
  | [], _ => True
  | name :: path, tree =>
      Sorted tree.members ∧ ∀ held, tree.member? name = some held → SortedAlong path held

/-- Nothing stands at the end of a way, and there are only tables on it. -/
def HasRoom : List String → Tree → Prop
  | [], _ => False
  | name :: path, tree =>
      tree.IsTable ∧ ∀ held, tree.member? name = some held → HasRoom path held

theorem HasRoom.sortedAlong {path : List String} {tree : Tree} (room : HasRoom path tree) :
    SortedAlong path tree := by
  induction path generalizing tree with
  | nil => trivial
  | cons name path ih =>
      obtain ⟨isTable, rooms⟩ := room
      exact ⟨isTable.sorted, fun held isHeld => ih (rooms held isHeld)⟩

theorem SortedAlong.merge {path : List String} {earlier later : Tree}
    (sorted : SortedAlong path earlier) (room : HasRoom path later) :
    SortedAlong path (earlier.merge later) := by
  induction path generalizing earlier later with
  | nil => trivial
  | cons name path ih =>
      obtain ⟨ordered, orders⟩ := sorted
      obtain ⟨isTable, rooms⟩ := room
      refine ⟨(isTable.merge ordered).sorted, fun held isHeld => ?_⟩
      rw [member?_merge earlier isTable] at isHeld
      cases before : earlier.member? name with
      | none =>
          cases behind : later.member? name with
          | none =>
              rw [before, behind] at isHeld
              cases isHeld
          | some tree =>
              rw [before, behind] at isHeld
              cases isHeld
              exact (rooms held behind).sortedAlong
      | some tree =>
          cases behind : later.member? name with
          | none =>
              rw [before, behind] at isHeld
              cases isHeld
              exact orders held before
          | some tree' =>
              rw [before, behind] at isHeld
              cases isHeld
              exact ih (orders tree before) (rooms tree' behind)

theorem merge_nested_assoc {path : List String} {earlier later : Tree}
    (sorted : SortedAlong path earlier) (room : HasRoom path later) (source : Source)
    (leaf : Tree) :
    earlier.merge (later.merge (nested source path leaf)) =
      (earlier.merge later).merge (nested source path leaf) := by
  induction path generalizing earlier later with
  | nil => exact room.elim
  | cons name path ih =>
      obtain ⟨ordered, orders⟩ := sorted
      obtain ⟨isTable, rooms⟩ := room
      have placed := Members.sorted_insert isTable.sorted name
        (layered (later.member? name) (nested source path leaf))
      rw [merge_nested, merge_nested, merge_table earlier source placed]
      congr 1
      refine (sorted_mergeMembers ordered _).ext
        (Members.sorted_insert (isTable.merge ordered).sorted _ _) fun other => ?_
      rw [lookup_mergeMembers _ placed, Members.lookup_insert, Members.lookup_insert]
      change Option.merge Tree.merge (earlier.member? other)
        (if other = name then _ else later.member? other) =
          if other = name then _ else (earlier.merge later).member? other
      by_cases same : other = name
      · subst same
        rw [if_pos rfl, if_pos rfl, member?_merge earlier isTable, merge_some]
        cases behind : later.member? other with
        | none => cases earlier.member? other <;> rfl
        | some tree' =>
            cases before : earlier.member? other with
            | none => rfl
            | some tree => exact congrArg some (ih (orders tree before) (rooms tree' behind))
      · rw [if_neg same, if_neg same, member?_merge earlier isTable]

/-! ## Several settings -/

def Apart (path other : List String) : Prop := ¬path <+: other ∧ ¬other <+: path

theorem Apart.tail {name : String} {path other : List String}
    (apart : Apart (name :: path) (name :: other)) : Apart path other :=
  ⟨fun inFront => apart.1 (List.cons_prefix_cons.2 ⟨rfl, inFront⟩),
    fun inFront => apart.2 (List.cons_prefix_cons.2 ⟨rfl, inFront⟩)⟩

theorem not_apart_nil (path : List String) : ¬Apart path [] := fun apart => apart.2 List.nil_prefix

theorem hasRoom_empty {path : List String} (filled : path ≠ []) (source : Source) :
    HasRoom path (.table source []) := by
  cases path with
  | nil => contradiction
  | cons name path => exact ⟨⟨source, [], rfl, List.Pairwise.nil⟩, nofun⟩

theorem Apart.ne_nil {path other : List String} (apart : Apart path other) : path ≠ [] := by
  rintro rfl
  exact apart.1 List.nil_prefix

theorem Apart.symm {path other : List String} (apart : Apart path other) : Apart other path :=
  ⟨apart.2, apart.1⟩

theorem layered_nested {path : List String} (filled : path ≠ []) (held : Option Tree)
    (source : Source) (leaf : Tree) : layered held (nested source path leaf) =
      (held.getD (.table source [])).merge (nested source path leaf) := by
  cases held with
  | some tree => rfl
  | none =>
      cases path with
      | nil => contradiction
      | cons name path =>
          rw [merge_nested]
          rfl

theorem hasRoom_getD {path : List String} (filled : path ≠ []) {held : Option Tree}
    (rooms : ∀ tree, held = some tree → HasRoom path tree) (source : Source) :
    HasRoom path (held.getD (.table source [])) := by
  cases held with
  | some tree => exact rooms tree rfl
  | none => exact hasRoom_empty filled source

theorem isTable_nested (source : Source) (name : String) (path : List String) (leaf : Tree) :
    (nested source (name :: path) leaf).IsTable := ⟨source, _, rfl, List.pairwise_singleton _ _⟩

theorem HasRoom.merge_nested {path other : List String} {tree : Tree} (room : HasRoom path tree)
    (apart : Apart path other) (source : Source) (leaf : Tree) :
    HasRoom path (tree.merge (nested source other leaf)) := by
  induction path generalizing other tree with
  | nil => exact room.elim
  | cons name path ih =>
      obtain ⟨isTable, rooms⟩ := room
      cases other with
      | nil => exact absurd apart (not_apart_nil _)
      | cons first other =>
          refine ⟨(isTable_nested source first other leaf).merge isTable.sorted, ?_⟩
          intro held isHeld
          rw [member?_merge_nested] at isHeld
          split at isHeld
          · next same =>
              subst same
              cases isHeld
              rw [layered_nested apart.tail.symm.ne_nil]
              exact ih (hasRoom_getD apart.tail.ne_nil rooms source) apart.tail
          · exact rooms held isHeld

theorem merge_nested_comm {path other : List String} {tree : Tree} (room : HasRoom path tree)
    (apart : Apart path other) (source : Source) (leaf leaf' : Tree) :
    (tree.merge (nested source path leaf)).merge (nested source other leaf') =
      (tree.merge (nested source other leaf')).merge (nested source path leaf) := by
  induction path generalizing other tree with
  | nil => exact room.elim
  | cons name path ih =>
      obtain ⟨isTable, rooms⟩ := room
      cases other with
      | nil => exact absurd apart (not_apart_nil _)
      | cons first other =>
          have sorted {name : String} {path : List String} {leaf : Tree} :
              Sorted (tree.merge (nested source (name :: path) leaf)).members :=
            ((isTable_nested source name path leaf).merge isTable.sorted).sorted
          rw [merge_nested (tree.merge _), merge_nested (tree.merge _)]
          congr 1
          refine (Members.sorted_insert sorted _ _).ext (Members.sorted_insert sorted _ _)
            fun place => ?_
          rw [Members.lookup_insert, Members.lookup_insert]
          change (if place = first then _ else (tree.merge _).member? place) =
            if place = name then _ else (tree.merge _).member? place
          simp only [member?_merge_nested]
          -- The paths part further down, or no member is on both of them.
          by_cases same : name = first
          · subst same
            by_cases here : place = name
            · have room := hasRoom_getD apart.tail.ne_nil rooms source
              rw [if_pos here, if_pos here, if_pos rfl, if_pos rfl,
                layered_nested apart.tail.ne_nil (tree.member? name),
                layered_nested apart.tail.symm.ne_nil (tree.member? name)]
              exact congrArg some (ih room apart.tail)
            · simp only [if_neg here]
          · by_cases here : place = name
            · subst here
              simp only [if_neg same, if_neg (Ne.symm same), if_true]
            · simp only [if_neg here, if_neg same, if_neg (Ne.symm same)]

end Tree

end Bearer.Settings
