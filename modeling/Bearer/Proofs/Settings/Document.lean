import Bearer.Proofs.Outcome
import Bearer.Proofs.Settings.Merge
import Bearer.Settings.Document

namespace Bearer.Settings

open Named (Sorted)

namespace Tree

/-! ## Order -/

def Ordered (tree : Tree) : Prop := ∀ path, SortedAlong path tree

structure OrderedMembers (members : Members) : Prop where
  sorted : Sorted members
  held : ∀ name tree, members.lookup name = some tree → Ordered tree

theorem ordered_iff {tree : Tree} : tree.Ordered ↔ OrderedMembers tree.members := by
  constructor
  · intro ordered
    exact ⟨(ordered [""]).1, fun name held isHeld path => (ordered (name :: path)).2 held isHeld⟩
  · rintro ⟨sorted, held⟩ (_ | ⟨name, path⟩)
    · trivial
    · exact ⟨sorted, fun tree isHeld => held name tree isHeld path⟩

theorem orderedMembers_nil : OrderedMembers [] := ⟨List.Pairwise.nil, nofun⟩

theorem ordered_scalar (source : Source) (value : Scalar) : Ordered (.scalar source value) :=
  ordered_iff.2 orderedMembers_nil

theorem ordered_list (source : Source) (items : List Tree) : Ordered (.list source items) :=
  ordered_iff.2 orderedMembers_nil

theorem OrderedMembers.insert {members : Members} (ordered : OrderedMembers members) {tree : Tree}
    (further : tree.Ordered) (name : String) : OrderedMembers (members.insert name tree) where
  sorted := Members.sorted_insert ordered.sorted name tree
  held other found isHeld := by
    rw [Members.lookup_insert] at isHeld
    split at isHeld
    · cases isHeld
      exact further
    · exact ordered.held other found isHeld

theorem ordered_nested (source : Source) (path : List String) {leaf : Tree}
    (ordered : leaf.Ordered) : (nested source path leaf).Ordered := by
  induction path with
  | nil => exact ordered
  | cons name path ih => exact ordered_iff.2 (orderedMembers_nil.insert ih name)

theorem members_withSource (source : Source) (tree : Tree) :
    (tree.withSource source).members = membersWithSource source tree.members := by
  cases tree <;> rfl

theorem names_membersWithSource (source : Source) (members : Members) :
    (membersWithSource source members).map Prod.fst = members.map Prod.fst := by
  induction members with
  | nil => rfl
  | cons member members ih => exact congrArg (member.1 :: ·) ih

theorem lookup_membersWithSource (source : Source) (members : Members) (name : String) :
    (membersWithSource source members).lookup name =
      (members.lookup name).map (withSource source) := by
  induction members with
  | nil => rfl
  | cons member members ih =>
      obtain ⟨other, held⟩ := member
      rw [membersWithSource, Named.lookup_cons, Named.lookup_cons, ih]
      split <;> rfl

theorem sorted_membersWithSource (source : Source) {members : Members} (sorted : Sorted members) :
    Sorted (membersWithSource source members) := by
  have names : ((membersWithSource source members).map Prod.fst).Pairwise (· < ·) := by
    rw [names_membersWithSource]
    exact List.pairwise_map.2 sorted
  exact List.pairwise_map.1 names

theorem SortedAlong.withSource {path : List String} {tree : Tree} (sorted : SortedAlong path tree)
    (source : Source) : SortedAlong path (tree.withSource source) := by
  induction path generalizing tree with
  | nil => trivial
  | cons name path ih =>
      obtain ⟨ordered, orders⟩ := sorted
      refine ⟨?_, fun held isHeld => ?_⟩
      · rw [members_withSource]
        exact sorted_membersWithSource source ordered
      · rw [member?, members_withSource, lookup_membersWithSource, Option.map_eq_some_iff] at isHeld
        obtain ⟨kept, isKept, rfl⟩ := isHeld
        exact ih (orders kept isKept)

theorem Ordered.withSource {tree : Tree} (ordered : tree.Ordered) (source : Source) :
    (tree.withSource source).Ordered := fun path => (ordered path).withSource source

end Tree

namespace Replay

open Settings.Tree (Ordered OrderedMembers)

/-! ## What readers give -/

section

variable {α β : Type} {holds : α → Prop} {holds' : β → Prop}

def Yields (reader : ReplayM α) (holds : α → Prop) : Prop :=
  ∀ replay value after, reader replay = .ok (value, after) → holds value

theorem yields_any (reader : ReplayM α) : Yields reader fun _ => True := fun _ _ _ _ => trivial

theorem yields_pure {value : α} (held : holds value) : Yields (pure value) holds := by
  intro replay found after done
  cases done
  exact held

theorem yields_throw (fault : DocumentFault) : Yields (throw fault : ReplayM α) holds := by
  intro replay found after done
  cases done

theorem Yields.bind {reader : ReplayM α} {next : α → ReplayM β} (first : Yields reader holds)
    (then_ : ∀ value, holds value → Yields (next value) holds') :
    Yields (reader >>= next) holds' := by
  intro replay value after done
  obtain ⟨found, between, here, further⟩ := bind_read_eq_ok.1 done
  exact then_ found (first replay found between here) between value after further

theorem yields_bind {reader : ReplayM α} {next : α → ReplayM β}
    (then_ : ∀ value, Yields (next value) holds') : Yields (reader >>= next) holds' :=
  (yields_any reader).bind fun value _ => then_ value

theorem Yields.of_run' {reader : ReplayM α} (yields : Yields reader holds) {replay : Replay}
    {value : α} (done : reader.run' replay = .ok value) : holds value := by
  change Prod.fst <$> reader replay = _ at done
  cases ran : reader replay with
  | error fault =>
      rw [ran] at done
      cases done
  | ok pair =>
      rw [ran] at done
      cases done
      exact yields replay pair.1 pair.2 ran

theorem Yields.along {reader : ReplayM α} (yields : Yields reader holds) (document : Yaml.Document)
    (number : Nat) : Yields (along document number reader) holds := by
  unfold Replay.along
  refine yields_bind fun replay => ?_
  cases replay.budget with
  | zero => exact yields_throw _
  | succ budget =>
      exact yields_bind fun _ => yields.bind fun value held => yields_bind fun _ => yields_pure held

end

/-! ## Values -/

structure OrderedDraft (draft : Draft) : Prop where
  members : OrderedMembers draft.members
  content : ∀ tree, draft.content = some tree → tree.Ordered

theorem orderedDraft_empty : OrderedDraft ⟨[], none, none⟩ where
  members := Tree.orderedMembers_nil
  content tree isContent := by cases isContent

theorem OrderedDraft.tree {draft : Draft} (ordered : OrderedDraft draft) (source : Source) :
    (draft.tree source).Ordered := by
  obtain ⟨members, identity, content⟩ := draft
  cases content with
  | none => exact Tree.ordered_iff.2 ordered.members
  | some tree =>
      have kept := ordered.content tree rfl
      cases identity with
      | none => exact kept
      | some number => exact kept.withSource _

variable (document : Yaml.Document) (source : Source)

structure InOrder (fuel : Nat) : Prop where
  ofValue (depth : Nat) (way : Way) (isNamed : Bool) :
    Yields (value document source fuel depth way isNamed) Ordered
  ofMembers (depth : Nat) (way : Way) {draft : Draft} (ordered : OrderedDraft draft) :
    Yields (members document source fuel depth way draft) OrderedDraft

theorem yields_value {fuel : Nat} (inOrder : InOrder document source fuel) (depth : Nat)
    (way : Way) (isNamed : Bool) :
    Yields (value document source (fuel + 1) depth way isNamed) Ordered := by
  unfold value
  refine yields_bind fun placed => ?_
  obtain ⟨event, mark⟩ := placed
  dsimp only
  split
  · next name =>
      exact (inOrder.ofValue depth way true).bind fun tree ordered =>
        yields_pure (Tree.ordered_nested source _ ordered)
  · refine yields_bind fun _ => ?_
    split
    · exact (inOrder.ofValue depth _ false).along document _
    · split
      · exact yields_pure (Tree.ordered_scalar _ _)
      · exact yields_bind fun _ => yields_pure (Tree.ordered_scalar _ _)
    · exact yields_bind fun _ => yields_bind fun _ => yields_pure (Tree.ordered_list _ _)
    · exact yields_bind fun _ => yields_bind fun _ => yields_pure (Tree.ordered_list _ _)
    · exact yields_bind fun depth =>
        (inOrder.ofMembers depth way orderedDraft_empty).bind fun draft ordered =>
          yields_pure (ordered.tree source)

theorem yields_members {fuel : Nat} (inOrder : InOrder document source fuel) (depth : Nat)
    (way : Way) {draft : Draft} (ordered : OrderedDraft draft) :
    Yields (members document source (fuel + 1) depth way draft) OrderedDraft := by
  unfold members
  refine yields_bind fun placed => ?_
  split
  · exact yields_bind fun _ => yields_pure ordered
  · refine yields_bind fun named => ?_
    obtain ⟨name, inner⟩ := named
    dsimp only
    split
    · refine yields_bind fun number => inOrder.ofMembers depth way ?_
      exact ⟨ordered.members, ordered.content⟩
    · refine (inOrder.ofValue depth inner false).bind fun tree further => ?_
      split
      · refine inOrder.ofMembers depth way ⟨ordered.members, fun other isContent => ?_⟩
        cases isContent
        exact further
      · exact inOrder.ofMembers depth way ⟨ordered.members.insert further name, ordered.content⟩

theorem inOrder (fuel : Nat) : InOrder document source fuel := by
  induction fuel with
  | zero =>
      constructor
      · intro depth way isNamed
        rw [value]
        exact yields_throw _
      · intro depth way draft ordered
        rw [members]
        exact yields_throw _
  | succ fuel ih =>
      exact ⟨yields_value document source ih,
        fun depth way _ => yields_members document source ih depth way⟩

theorem yields_rootMembers (fuel depth : Nat) {held : Members} (ordered : OrderedMembers held) :
    Yields (rootMembers document source fuel depth held) OrderedMembers := by
  induction fuel generalizing held with
  | zero => exact yields_throw _
  | succ fuel ih =>
      unfold rootMembers
      refine yields_bind fun placed => ?_
      split
      · exact yields_bind fun _ => yields_pure ordered
      · refine yields_bind fun named => ?_
        obtain ⟨name, way⟩ := named
        exact ((inOrder document source (fuel + 1)).ofValue depth way false).bind fun tree further =>
          ih (ordered.insert further name)

theorem yields_root (fuel : Nat) : Yields (root document source fuel) Ordered := by
  have empty : Ordered (.table source []) := Tree.ordered_iff.2 Tree.orderedMembers_nil
  unfold root
  refine yields_bind fun placed => ?_
  split
  · exact yields_pure empty
  · refine yields_bind fun depth => ?_
    exact (yields_rootMembers document source fuel depth Tree.orderedMembers_nil).bind
      fun members ordered => yields_pure (Tree.ordered_iff.2 ordered)
  · split
    · split
      · exact yields_pure empty
      · exact yields_bind fun _ => yields_throw _
    · exact yields_bind fun _ => yields_throw _

end Replay

theorem Tree.ordered_ofYaml {source : Source} {text : String} {tree : Tree}
    (read : ofYaml source text = .ok tree) : tree.Ordered := by
  simp only [ofYaml, bind_eq_ok] at read
  obtain ⟨found, ran, kept⟩ := read
  have ordered : found.Ordered := (Replay.yields_root _ source _).of_run' ran
  split at kept
  · cases kept
  · split at kept
    · cases kept
    · cases kept
      exact ordered

end Bearer.Settings
