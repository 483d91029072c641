import Bearer.Proofs.Settings.Merge
import Bearer.Settings.Variable

namespace Bearer.Settings.Tree

def withVariable (tree : Tree) (entry : String × String) : Tree :=
  match settingPath? entry.1 with
  | some path => tree.merge (nested .environment path (Inline.read entry.2))
  | none => tree

theorem ofVariables_eq (listed : List (String × String)) :
    ofVariables listed = listed.foldl withVariable (.table .environment []) := rfl

def Elsewhere (path : List String) (listed : List (String × String)) : Prop :=
  ∀ entry ∈ listed, ∀ other, settingPath? entry.1 = some other → Apart path other

section

variable {path : List String} {listed : List (String × String)} {tree : Tree}

theorem HasRoom.withVariables (room : HasRoom path tree) (elsewhere : Elsewhere path listed) :
    HasRoom path (listed.foldl withVariable tree) := by
  induction listed generalizing tree with
  | nil => exact room
  | cons entry listed ih =>
      obtain ⟨apart, elsewhere⟩ := List.forall_mem_cons.1 elsewhere
      refine ih ?_ elsewhere
      unfold withVariable
      cases isSetting : settingPath? entry.1 with
      | none => exact room
      | some other => exact room.merge_nested (apart other isSetting) _ _

theorem foldl_withVariable_merge (room : HasRoom path tree) (elsewhere : Elsewhere path listed)
    (leaf : Tree) :
    listed.foldl withVariable (tree.merge (nested .environment path leaf)) =
      (listed.foldl withVariable tree).merge (nested .environment path leaf) := by
  induction listed generalizing tree with
  | nil => rfl
  | cons entry listed ih =>
      obtain ⟨apart, elsewhere⟩ := List.forall_mem_cons.1 elsewhere
      have further : HasRoom path (withVariable tree entry) :=
        room.withVariables (List.forall_mem_singleton.2 apart)
      have swapped : withVariable (tree.merge (nested .environment path leaf)) entry =
          (withVariable tree entry).merge (nested .environment path leaf) := by
        unfold withVariable
        cases isSetting : settingPath? entry.1 with
        | none => rfl
        | some other => exact merge_nested_comm room (apart other isSetting) _ _ _
      rw [List.foldl_cons, List.foldl_cons, swapped, ih further elsewhere]

end

theorem hasRoom_ofVariables {path : List String} (filled : path ≠ [])
    {listed : List (String × String)} (elsewhere : Elsewhere path listed) :
    HasRoom path (ofVariables listed) :=
  (hasRoom_empty filled .environment).withVariables elsewhere

theorem ofVariables_with {path : List String} (filled : path ≠ [])
    {before behind : List (String × String)} (elsewhere : Elsewhere path (before ++ behind))
    {name : String} (isSetting : settingPath? name = some path) (value : String) :
    ofVariables (before ++ (name, value) :: behind) =
      (ofVariables (before ++ behind)).merge (nested .environment path (Inline.read value)) := by
  obtain ⟨inFront, afterwards⟩ := List.forall_mem_append.1 elsewhere
  have room : HasRoom path (ofVariables before) := hasRoom_ofVariables filled inFront
  have here : withVariable (ofVariables before) (name, value) =
      (ofVariables before).merge (nested .environment path (Inline.read value)) := by
    rw [withVariable, isSetting]
  rw [ofVariables_eq, ofVariables_eq, List.foldl_append, List.foldl_append, List.foldl_cons,
    ← ofVariables_eq, here, foldl_withVariable_merge room afterwards]

end Bearer.Settings.Tree
