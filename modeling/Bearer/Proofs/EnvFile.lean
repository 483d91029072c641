import Bearer.EnvFile
import Mathlib.Data.List.TakeWhile
import Mathlib.Tactic.SplitIfs
import Mathlib.Tactic.Tauto

namespace Bearer

namespace Variables

/-! ## One definition -/

structure IsVariable (name : String) : Prop where
  nonempty : name ≠ ""
  closed : '=' ∉ name.toList

theorem IsVariable.takeWhile {name : String} (isName : IsVariable name) (rest : List Char) :
    (name.toList ++ '=' :: rest).takeWhile (· != '=') = name.toList := by
  have inside : ∀ c ∈ name.toList, (c != '=') = true := by
    intro c member
    exact bne_iff_ne.2 fun equals => isName.closed (equals ▸ member)
  rw [List.takeWhile_append_of_pos inside, List.takeWhile_cons_of_neg (by simp), List.append_nil]

theorem valueBehind?_entry {name other : String} (isName : IsVariable name)
    (isOther : IsVariable other) (value : String) :
    valueBehind? name (other ++ "=" ++ value) = if name = other then some value else none := by
  have start : (name ++ "=").toList = name.toList ++ ['='] := by simp
  have entry : (other ++ "=" ++ value).toList = other.toList ++ '=' :: value.toList := by simp
  simp only [valueBehind?, start, entry, List.isPrefixOf_iff_prefix]
  by_cases same : name = other
  · subst same
    have inFront : name.toList ++ ['='] <+: name.toList ++ '=' :: value.toList :=
      ⟨value.toList, by simp⟩
    rw [if_pos inFront, if_pos rfl]
    simp
  · rw [if_neg same, if_neg]
    rintro ⟨rest, agrees⟩
    rw [List.append_assoc, List.singleton_append] at agrees
    have names := congrArg (List.takeWhile (· != '=')) agrees
    rw [isName.takeWhile, isOther.takeWhile] at names
    exact same (String.toList_injective names)

theorem get?_append {name : String} (nonempty : name ≠ "") (known more : Variables) :
    get? (known ++ more) name = (get? known name).or (get? more name) := by
  simp only [get?, if_neg nonempty, List.findSome?_append]

theorem nonempty_of_get? {known : Variables} {name value : String}
    (held : known.get? name = some value) : name ≠ "" := by
  rintro rfl
  cases held

theorem get?_define_of_some {known : Variables} {name value : String}
    (held : known.get? name = some value) (other more : String) :
    (known.define other more).get? name = some value := by
  unfold define
  split
  · exact held
  · rw [get?_append (nonempty_of_get? held), held, Option.some_or]

theorem get?_define {name other : String} (isName : IsVariable name) (isOther : IsVariable other)
    (known : Variables) (value : String) : (known.define other value).get? name =
      (known.get? name).or (if name = other then some value else none) := by
  unfold define
  cases held : (known.get? other).isSome with
  | true =>
      -- The variable is set and keeps its value, and all others keep theirs.
      rw [if_pos rfl]
      by_cases same : name = other
      · obtain ⟨old, isOld⟩ := Option.isSome_iff_exists.1 held
        rw [same, isOld, Option.some_or]
      · rw [if_neg same, Option.or_none]
  | false =>
      rw [if_neg Bool.false_ne_true, get?_append isName.nonempty]
      simp only [get?, if_neg isName.nonempty, List.findSome?_cons, List.findSome?_nil,
        valueBehind?_entry isName isOther]
      split <;> simp_all

/-! ## Several definitions -/

abbrev Definitions := List (String × String)

def defineAll (known : Variables) (made : Definitions) : Variables :=
  made.foldl (fun known definition => known.define definition.1 definition.2) known

def Proper (made : Definitions) : Prop := ∀ definition ∈ made, IsVariable definition.1

theorem get?_defineAll {name : String} (isName : IsVariable name) (known : Variables)
    {made : Definitions} (proper : Proper made) :
    (known.defineAll made).get? name = (known.get? name).or (made.lookup name) := by
  induction made generalizing known with
  | nil => exact Option.or_none.symm
  | cons definition made ih =>
      obtain ⟨isOther, proper⟩ := List.forall_mem_cons.1 proper
      change ((known.define definition.1 definition.2).defineAll made).get? name = _
      rw [ih _ proper, get?_define isName isOther, Option.or_assoc, List.lookup_cons]
      by_cases same : name = definition.1
      · rw [if_pos same, beq_iff_eq.2 same, Option.some_or]
      · rw [if_neg same, beq_eq_false_iff_ne.2 same, Option.none_or]

theorem get?_defineAll_of_some {known : Variables} {name value : String}
    (held : known.get? name = some value) (made : Definitions) :
    (known.defineAll made).get? name = some value := by
  induction made generalizing known with
  | nil => exact held
  | cons definition made ih => exact ih (get?_define_of_some held definition.1 definition.2)

end Variables

namespace EnvFile

open Variables

/-! ## Names -/

theorem splitName_eq_some {line name rest : List Char} (split : splitName line = some (name, rest)) :
    name ≠ [] ∧ ∀ c ∈ name, isNameChar c = true := by
  unfold splitName at split
  split_ifs at split with starts
  obtain ⟨rfl, -⟩ := Prod.mk.inj (Option.some.inj split)
  refine ⟨fun empty => ?_, fun c member => List.mem_takeWhile_imp member⟩
  cases line with
  | nil => simp at starts
  | cons c line =>
      have isStart : startsName c = true := by simpa using starts
      have inside : isNameChar c = true := by
        simp only [startsName, isNameChar, Char.isAlphanum, Bool.or_eq_true] at *
        tauto
      rw [List.takeWhile_cons_of_pos inside] at empty
      cases empty

theorem splitDefinition_eq_some {line name value : List Char}
    (split : splitDefinition line = some (name, value)) :
    ∃ line rest, splitName line = some (name, rest) := by
  obtain ⟨⟨first, rest⟩, named, split⟩ := Option.bind_eq_some_iff.1 split
  dsimp only at split
  split at split
  · cases split
    exact ⟨line, _, named⟩
  · -- There is a word `export` in front.
    obtain ⟨-, -, split⟩ := Option.bind_eq_some_iff.1 split
    obtain ⟨⟨second, behind⟩, named, split⟩ := Option.bind_eq_some_iff.1 split
    dsimp only at split
    split at split
    · cases split
      exact ⟨rest, _, named⟩
    · cases split

theorem isVariable_of_split {line name value : List Char}
    (split : splitDefinition line = some (name, value)) : IsVariable (String.ofList name) := by
  obtain ⟨part, rest, named⟩ := splitDefinition_eq_some split
  obtain ⟨filled, chars⟩ := splitName_eq_some named
  refine ⟨fun empty => filled ?_, fun member => ?_⟩
  · rw [← String.toList_ofList (l := name), empty]
    rfl
  · rw [String.toList_ofList] at member
    have inside := chars '=' member
    revert inside
    decide

theorem isVariable_of_definition? {known : Variables} {line : List Char} {name value : String}
    (defined : definition? known line = some (some (name, value))) : IsVariable name := by
  simp only [definition?] at defined
  split_ifs at defined with blank
  · cases defined
  · simp only [Option.bind_eq_bind, Option.bind_eq_some_iff, Prod.exists] at defined
    obtain ⟨chars, rest, split, defined⟩ := defined
    have isName := isVariable_of_split split
    split_ifs at defined with valueless
    · cases defined
      exact isName
    · simp only [Option.bind_eq_some_iff] at defined
      obtain ⟨held, -, defined⟩ := defined
      cases defined
      exact isName

/-! ## Lines -/

def definitionsOf (known : Variables) : List (Option (List Char)) → Definitions
  | [] => []
  | none :: _ => []
  | some line :: lines =>
      match definition? known line with
      | none => []
      | some none => definitionsOf known lines
      | some (some (name, value)) => (name, value) :: definitionsOf (known.define name value) lines

theorem loadLines_eq (known : Variables) (lines : List (Option (List Char))) :
    loadLines known lines = known.defineAll (definitionsOf known lines) := by
  induction lines generalizing known with
  | nil => rfl
  | cons line lines ih =>
      cases line with
      | none => rfl
      | some line =>
          simp only [loadLines, definitionsOf]
          cases definition? known line with
          | none => rfl
          | some found =>
              cases found with
              | none => exact ih known
              | some definition => exact ih (known.define definition.1 definition.2)

theorem proper_definitionsOf (known : Variables) (lines : List (Option (List Char))) :
    Proper (definitionsOf known lines) := by
  induction lines generalizing known with
  | nil => exact List.forall_mem_nil _
  | cons line lines ih =>
      cases line with
      | none => exact List.forall_mem_nil _
      | some line =>
          simp only [definitionsOf]
          cases defined : definition? known line with
          | none => exact List.forall_mem_nil _
          | some found =>
              cases found with
              | none => exact ih known
              | some definition =>
                  exact List.forall_mem_cons.2 ⟨isVariable_of_definition? defined, ih _⟩

def linesOf (content : Bytes) : List (Option (List Char)) :=
  let content := if byteOrderMark.isPrefixOf content then content.drop 3 else content
  logicalLines .complete [] (physicalLines content)

def definitions (known : Variables) (content : Bytes) : Definitions :=
  definitionsOf known (linesOf content)

theorem load_eq (known : Variables) (content : Bytes) :
    load known content = known.defineAll (definitions known content) :=
  loadLines_eq known (linesOf content)

theorem proper_definitions (known : Variables) (content : Bytes) :
    Proper (definitions known content) := proper_definitionsOf known (linesOf content)

end EnvFile

end Bearer
