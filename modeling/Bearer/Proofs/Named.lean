import Mathlib.Data.List.Nodup
import Mathlib.Tactic.SplitIfs

namespace Bearer.Named

variable {β : Type}

def Sorted (members : List (String × β)) : Prop :=
  members.Pairwise fun left right => left.1 < right.1

def place (name : String) (held : β) : List (String × β) → List (String × β)
  | [] => [(name, held)]
  | (other, kept) :: rest =>
      if name < other then (name, held) :: (other, kept) :: rest
      else if name = other then (name, held) :: rest
      else (other, kept) :: place name held rest

theorem lookup_cons (name other : String) (held : β) (members : List (String × β)) :
    ((other, held) :: members).lookup name =
      if name = other then some held else members.lookup name := by
  rw [List.lookup_cons]
  by_cases same : name = other
  · rw [if_pos same, beq_iff_eq.2 same]
  · rw [if_neg same, beq_eq_false_iff_ne.2 same]

/-! ## Placing -/

theorem lookup_place (name other : String) (held : β) (members : List (String × β)) :
    (place other held members).lookup name =
      if name = other then some held else members.lookup name := by
  induction members with
  | nil => exact lookup_cons name other held []
  | cons member members ih =>
      obtain ⟨first, kept⟩ := member
      rw [place]
      split
      · exact lookup_cons name other held _
      · split
        · next same =>
            subst same
            simp only [lookup_cons]
            split <;> rfl
        · next differs =>
            -- The names of the two members differ, so either may be looked at first.
            simp only [lookup_cons, ih]
            grind

theorem mem_place {name : String} {held : β} {members : List (String × β)} {member : String × β}
    (inside : member ∈ place name held members) : member = (name, held) ∨ member ∈ members := by
  induction members with
  | nil => exact .inl (List.mem_singleton.1 inside)
  | cons first members ih =>
      obtain ⟨other, kept⟩ := first
      rw [place] at inside
      split_ifs at inside with before same
      · exact List.mem_cons.1 inside
      · exact (List.mem_cons.1 inside).imp_right (List.mem_cons_of_mem _)
      · rcases List.mem_cons.1 inside with rfl | inside
        · exact .inr List.mem_cons_self
        · exact (ih inside).imp_right (List.mem_cons_of_mem _)

theorem Sorted.place {members : List (String × β)} (sorted : Sorted members) (name : String)
    (held : β) : Sorted (place name held members) := by
  induction members with
  | nil => exact List.pairwise_singleton _ _
  | cons first members ih =>
      obtain ⟨other, kept⟩ := first
      have ⟨least, rest⟩ := List.pairwise_cons.1 sorted
      rw [Named.place]
      split_ifs with before same
      · refine List.pairwise_cons.2 ⟨fun member inside => ?_, sorted⟩
        rcases List.mem_cons.1 inside with rfl | inside
        · exact before
        · exact String.lt_trans before (least member inside)
      · subst same
        exact List.pairwise_cons.2 ⟨least, rest⟩
      · have after : other < name := Std.lt_of_le_of_ne (String.not_lt.1 before) (Ne.symm same)
        refine List.pairwise_cons.2 ⟨fun member inside => ?_, ih rest⟩
        rcases mem_place inside with rfl | inside
        · exact after
        · exact least member inside

theorem place_split {members : List (String × β)} (sorted : Sorted members) (name : String)
    (held : β) : ∃ front back, place name held members = front ++ (name, held) :: back ∧
      (members = front ++ back ∨ ∃ old, members = front ++ (name, old) :: back) ∧
      (∀ member ∈ front, member.1 ≠ name) ∧ ∀ member ∈ back, member.1 ≠ name := by
  have cut : ∃ front back, place name held members = front ++ (name, held) :: back ∧
      (members = front ++ back ∨ ∃ old, members = front ++ (name, old) :: back) := by
    induction members with
    | nil => exact ⟨[], [], rfl, .inl rfl⟩
    | cons first members ih =>
        obtain ⟨other, kept⟩ := first
        rw [place]
        split_ifs with before same
        · exact ⟨[], _, rfl, .inl rfl⟩
        · subst same
          exact ⟨[], members, rfl, .inr ⟨kept, rfl⟩⟩
        · obtain ⟨front, back, placed, rfl | ⟨old, rfl⟩⟩ := ih (List.pairwise_cons.1 sorted).2
          · exact ⟨(other, kept) :: front, back, by rw [placed]; rfl, .inl rfl⟩
          · exact ⟨(other, kept) :: front, back, by rw [placed]; rfl, .inr ⟨old, rfl⟩⟩
  obtain ⟨front, back, placed, origin⟩ := cut
  have ordered := sorted.place name held
  rw [placed] at ordered
  obtain ⟨-, behind, infront⟩ := List.pairwise_append.1 ordered
  refine ⟨front, back, placed, origin, fun member inside => ?_, fun member inside => ?_⟩
  · exact String.ne_of_lt (infront member inside _ List.mem_cons_self)
  · exact (String.ne_of_lt ((List.pairwise_cons.1 behind).1 member inside)).symm

/-! ## Things in order -/

namespace Sorted

variable {members : List (String × β)} (sorted : Sorted members)

include sorted

theorem names_nodup : (members.map Prod.fst).Nodup :=
  List.pairwise_map.2 (sorted.imp String.ne_of_lt)

theorem lookup_eq_some_iff {name : String} {held : β} :
    members.lookup name = some held ↔ (name, held) ∈ members := by
  induction members with
  | nil => simp
  | cons first members ih =>
      obtain ⟨other, kept⟩ := first
      have ⟨least, rest⟩ := List.pairwise_cons.1 sorted
      rw [lookup_cons, List.mem_cons]
      by_cases same : name = other
      · subst same
        have absent : (name, held) ∉ members := fun inside =>
          absurd (least _ inside) (String.lt_irrefl name)
        simp [absent, eq_comm]
      · simp [same, ih rest]

theorem ext {others : List (String × β)} (sorted' : Sorted others)
    (same : ∀ name, members.lookup name = others.lookup name) : members = others := by
  have nodup {list : List (String × β)} (sorted : Sorted list) : list.Nodup :=
    List.Nodup.of_map _ sorted.names_nodup
  refine List.Perm.eq_of_pairwise (fun left right _ _ less greater => ?_) sorted sorted'
    ((List.perm_ext_iff_of_nodup (nodup sorted) (nodup sorted')).2 fun member => ?_)
  · exact absurd greater (String.lt_asymm less)
  · rw [← sorted.lookup_eq_some_iff, ← sorted'.lookup_eq_some_iff, same]

end Sorted

end Bearer.Named
