import Bearer.Proofs.Json.Grammar.Object
import Bearer.Proofs.Named
import Mathlib.Data.List.Induction

namespace Bearer.Json.Members

/-! ## Insertion -/

theorem insert_eq_place (name : String) (held : Value) (members : Members) :
    members.insert name held = Named.place name held members := by
  induction members with
  | nil => rfl
  | cons member members ih => rw [insert, Named.place, ih]

theorem get?_insert (name : String) (held : Value) (members : Members) (other : String) :
    (members.insert name held).get? other =
      if other = name then some held else members.get? other := by
  rw [insert_eq_place]
  exact Named.lookup_place other name held members

theorem mem_insert {name : String} {held : Value} {members : Members} {member : String × Value}
    (inside : member ∈ members.insert name held) : member = (name, held) ∨ member ∈ members := by
  rw [insert_eq_place] at inside
  exact Named.mem_place inside

theorem Sorted.insert {members : Members} (sorted : members.Sorted) (name : String) (held : Value) :
    (members.insert name held).Sorted := by
  rw [insert_eq_place]
  exact Named.Sorted.place sorted name held

/-! ## One member after the other -/

theorem ofList_concat (members : List (String × Value)) (last : String × Value) :
    ofList (members ++ [last]) = (ofList members).insert last.1 last.2 := by
  rw [ofList, List.foldl_append]
  rfl

theorem sorted_ofList (members : List (String × Value)) : (ofList members).Sorted := by
  induction members using List.reverseRecOn with
  | nil => exact List.Pairwise.nil
  | append_singleton members last ih =>
      rw [ofList_concat]
      exact ih.insert last.1 last.2

theorem mem_of_mem_ofList {members : List (String × Value)} {member : String × Value}
    (inside : member ∈ ofList members) : member ∈ members := by
  induction members using List.reverseRecOn with
  | nil => exact inside
  | append_singleton members last ih =>
      rw [ofList_concat] at inside
      exact List.mem_append.2 ((mem_insert inside).symm.imp ih List.mem_singleton.2)

theorem get?_ofList (members : List (String × Value)) (name : String) :
    (ofList members).get? name = (valuesOf name members).getLast? := by
  induction members using List.reverseRecOn with
  | nil => rfl
  | append_singleton members last ih =>
      obtain ⟨other, held⟩ := last
      rw [ofList_concat, get?_insert, ih, valuesOf_append]
      by_cases same : name = other
      · subst same
        rw [if_pos rfl, valuesOf_cons_self, List.getLast?_append_cons]
        rfl
      · rw [if_neg same, valuesOf_cons_other (Ne.symm same)]
        exact congrArg _ (List.append_nil _).symm

/-! ## Members in order -/

namespace Sorted

variable {members : Members} (sorted : members.Sorted)

include sorted

theorem names_nodup : (members.map Prod.fst).Nodup := Named.Sorted.names_nodup sorted

theorem ofList_eq : ofList members = members := by
  induction members using List.reverseRecOn with
  | nil => rfl
  | append_singleton members last ih =>
      rw [ofList_concat, ih (List.pairwise_append.1 sorted).1]
      exact insert_last _ fun member inside =>
        (List.pairwise_append.1 sorted).2.2 member inside _ List.mem_cons_self

theorem get?_eq_some_iff {name : String} {held : Value} :
    members.get? name = some held ↔ (name, held) ∈ members := Named.Sorted.lookup_eq_some_iff sorted

theorem ext {others : Members} (sorted' : others.Sorted)
    (same : ∀ name, members.get? name = others.get? name) : members = others :=
  Named.Sorted.ext sorted sorted' same

end Sorted

end Bearer.Json.Members
