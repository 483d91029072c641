import Bearer.Key.Ring
import Bearer.Proofs.Key.Table
import Bearer.Proofs.Outcome
import Bearer.Proofs.Time.Instant
import Mathlib.Data.List.Pairwise

namespace Bearer

/-! ## Fresh keys -/

namespace Key

section Mint

variable {now : Instant} {draw : KeyDraw} {key : Key}

theorem mint_eq_ok_iff : mint now draw = .ok key ↔ ∃ secret expiresAt,
    draw.secret = .ok secret ∧ now.add? lifetime = some expiresAt ∧
      ⟨draw.id, secret.bytes, expiresAt⟩ = key := by
  unfold mint
  cases draw.secret with
  | error reason => simp
  | ok secret =>
      rw [mapError_ok, ok_bind]
      cases now.add? lifetime <;> simp [pure_eq_ok]

theorem mint_eq_random_iff {reason : String} :
    mint now draw = .error (.random reason) ↔ draw.secret = .error reason := by
  unfold mint
  cases draw.secret with
  | error other => simp
  | ok secret => cases now.add? lifetime <;> simp [pure, Except.pure]

theorem of_mint (minted : mint now draw = .ok key) : key.id = draw.id ∧ now < key.expiresAt := by
  obtain ⟨secret, expiresAt, -, added, rfl⟩ := mint_eq_ok_iff.1 minted
  exact ⟨rfl, Instant.lt_of_add? (by decide) added⟩

theorem length_of_mint (minted : mint now draw = .ok key) : key.secret.length = keyLength := by
  obtain ⟨secret, expiresAt, -, -, rfl⟩ := mint_eq_ok_iff.1 minted
  exact secret.length_eq

theorem fit_of_mint (minted : mint now draw = .ok key) :
    key.id.isNil = false ∧ key.secret ≠ [] := by
  refine ⟨(of_mint minted).1 ▸ draw.id_not_nil, fun empty => ?_⟩
  have length := length_of_mint minted
  rw [empty] at length
  cases length

theorem isValid_of_mint {t : Instant} (minted : mint now draw = .ok key)
    (early : t < key.expiresAt) : key.isValid t = true := by
  obtain ⟨named, secret⟩ := fit_of_mint minted
  have filled : key.secret.isEmpty = false := by simpa using secret
  rw [isValid, named, filled, decide_eq_true early]
  rfl

end Mint

theorem le_of_isValid_eq_false {key : Key} {now : Instant} (named : key.id.isNil = false)
    (secret : key.secret ≠ []) (invalid : key.isValid now = false) : key.expiresAt ≤ now := by
  intro before
  have filled : key.secret.isEmpty = false := by simpa using secret
  rw [isValid, named, filled, decide_eq_true before] at invalid
  cases invalid

def Fit (key : Key) : Prop := key.id.isNil = false ∧ key.secret ≠ []

instance (key : Key) : Decidable key.Fit := inferInstanceAs (Decidable (_ ∧ _))

theorem isValid_iff {key : Key} {now : Instant} :
    key.isValid now = true ↔ key.Fit ∧ now < key.expiresAt := by
  simp [isValid, Fit]

end Key

namespace KeyRing

/-! ## Sorting -/

def Sorted (keys : List Key) : Prop :=
  keys.Pairwise fun left right => right.expiresAt ≤ left.expiresAt

def Descending (keys : List Key) : Prop :=
  keys.Pairwise fun left right => right.expiresAt < left.expiresAt

theorem Descending.sorted {keys : List Key} (descending : Descending keys) : Sorted keys :=
  descending.imp Instant.le_of_lt

theorem Descending.lt {keys : List Key} (descending : Descending keys) {i j : Nat} {left right : Key}
    (before : i < j) (leftThere : keys[i]? = some left) (rightThere : keys[j]? = some right) :
    right.expiresAt < left.expiresAt := by
  obtain ⟨leftInside, rfl⟩ := List.getElem?_eq_some_iff.1 leftThere
  obtain ⟨rightInside, rfl⟩ := List.getElem?_eq_some_iff.1 rightThere
  exact List.pairwise_iff_getElem.1 descending i j leftInside rightInside before

theorem Descending.eq_of_expiresAt {keys : List Key} (descending : Descending keys)
    {left right : Key} (leftInside : left ∈ keys) (rightInside : right ∈ keys)
    (same : left.expiresAt = right.expiresAt) : left = right := by
  have symmetric : Std.Symm fun left right : Key => left.expiresAt ≠ right.expiresAt :=
    ⟨fun _ _ => Ne.symm⟩
  have apart : keys.Pairwise fun left right => left.expiresAt ≠ right.expiresAt := by
    refine descending.imp fun before together => ?_
    rw [together] at before
    exact Instant.lt_irrefl _ before
  by_contra different
  exact apart.forall leftInside rightInside different same

theorem insertByExpiry_perm (key : Key) (keys : List Key) :
    (insertByExpiry key keys).Perm (key :: keys) := by
  induction keys with
  | nil => exact .refl _
  | cons other keys ih =>
      rw [insertByExpiry]
      split
      · exact .refl _
      · exact (ih.cons other).trans (.swap key other keys)

theorem Sorted.insertByExpiry {keys : List Key} (sorted : Sorted keys) (key : Key) :
    Sorted (insertByExpiry key keys) := by
  induction keys with
  | nil => exact List.pairwise_singleton _ _
  | cons other keys ih =>
      obtain ⟨after, rest⟩ := List.pairwise_cons.1 sorted
      rw [KeyRing.insertByExpiry]
      split
      · next before =>
          refine List.pairwise_cons.2 ⟨fun third inside => ?_, sorted⟩
          rcases List.mem_cons.1 inside with rfl | inside
          · exact Instant.le_of_lt before
          · exact Instant.le_trans (after third inside) (Instant.le_of_lt before)
      · next notBefore =>
          refine List.pairwise_cons.2 ⟨fun third inside => ?_, ih rest⟩
          rcases List.mem_cons.1 ((insertByExpiry_perm key keys).mem_iff.1 inside) with
            rfl | inside
          · exact notBefore
          · exact after third inside

theorem foldl_insertByExpiry (keys : List Key) {sorted : List Key} (isSorted : Sorted sorted) :
    Sorted (keys.foldl (fun sorted key => KeyRing.insertByExpiry key sorted) sorted) ∧
      (keys.foldl (fun sorted key => KeyRing.insertByExpiry key sorted) sorted).Perm
        (keys ++ sorted) := by
  induction keys generalizing sorted with
  | nil => exact ⟨isSorted, .refl _⟩
  | cons key keys ih =>
      obtain ⟨again, perm⟩ := ih (isSorted.insertByExpiry key)
      refine ⟨again, perm.trans ?_⟩
      exact ((insertByExpiry_perm key sorted).append_left keys).trans List.perm_middle

theorem sorted_sortByExpiry (keys : List Key) : Sorted (sortByExpiry keys) :=
  (foldl_insertByExpiry keys List.Pairwise.nil).1

theorem sortByExpiry_perm (keys : List Key) : (sortByExpiry keys).Perm keys := by
  have perm := (foldl_insertByExpiry keys (show Sorted [] from List.Pairwise.nil)).2
  rwa [List.append_nil] at perm

theorem sortByExpiry_eq {keys sorted : List Key} (perm : keys.Perm sorted)
    (descending : Descending sorted) : sortByExpiry keys = sorted :=
  ((sortByExpiry_perm keys).trans perm).eq_of_pairwise
    (fun _ _ leftInside rightInside first second => descending.eq_of_expiresAt
      (perm.mem_iff.1 ((sortByExpiry_perm keys).mem_iff.1 leftInside)) rightInside
      (Instant.le_antisymm second first))
    (sorted_sortByExpiry keys) descending.sorted

theorem descending_sortByExpiry {keys : List Key} (nodup : keys.Nodup)
    (apart : ∀ left ∈ keys, ∀ right ∈ keys, left.expiresAt = right.expiresAt → left = right) :
    Descending (sortByExpiry keys) := by
  have perm := sortByExpiry_perm keys
  refine ((sorted_sortByExpiry keys).and (perm.nodup_iff.2 nodup)).imp_of_mem ?_
  intro left right leftInside rightInside both
  refine Instant.lt_of_le_of_ne both.1 fun together => both.2 ?_
  exact apart left (perm.mem_iff.1 leftInside) right (perm.mem_iff.1 rightInside) together.symm

end KeyRing

end Bearer
