import Bearer.Key.Basic

namespace Bearer.KeyTable

theorem id_of_find? {table : KeyTable} {id : Uuid} {key : Key} (found : table.find? id = some key) :
    key.id = id := by
  simpa using List.find?_some found

theorem mem_of_find? {table : KeyTable} {id : Uuid} {key : Key} (found : table.find? id = some key) :
    key ∈ table := List.mem_of_find?_eq_some found

theorem find?_erase (table : KeyTable) (gone id : Uuid) :
    (table.erase gone).find? id = if id = gone then none else table.find? id := by
  unfold erase find?
  rw [List.find?_filter]
  split
  · next same =>
      rw [List.find?_eq_none]
      intro key _
      simp [same]
  · next other =>
      congr 1
      funext key
      by_cases isId : key.id = id
      · simp [isId, other]
      · simp [isId]

theorem find?_insert (table : KeyTable) (key : Key) (id : Uuid) :
    (table.insert key).find? id = if id = key.id then some key else table.find? id := by
  have last : (table.insert key).find? id = ((table.erase key.id).find? id).or
      (KeyTable.find? [key] id) := List.find?_append
  rw [last, find?_erase]
  split
  · next same => simp [find?, same]
  · next other => simp [find?, Ne.symm other]

/-! ## Each identifier once -/

def Distinct (table : KeyTable) : Prop := table.Pairwise fun left right => left.id ≠ right.id

theorem distinct_nil : Distinct [] := List.Pairwise.nil

theorem Distinct.erase {table : KeyTable} (distinct : table.Distinct) (id : Uuid) :
    (table.erase id).Distinct := List.Pairwise.filter _ distinct

theorem Distinct.insert {table : KeyTable} (distinct : table.Distinct) (key : Key) :
    (table.insert key).Distinct := by
  refine List.pairwise_append.2 ⟨distinct.erase key.id, List.pairwise_singleton _ _, ?_⟩
  intro other inside last isLast
  rw [List.mem_singleton.1 isLast]
  simpa using (List.mem_filter.1 inside).2

theorem Distinct.find?_of_mem {table : KeyTable} (distinct : table.Distinct) {key : Key}
    (member : key ∈ table) : table.find? key.id = some key := by
  induction table with
  | nil => cases member
  | cons first table ih =>
      obtain ⟨apart, rest⟩ := List.pairwise_cons.1 distinct
      rcases List.mem_cons.1 member with rfl | inside
      · simp [find?]
      · rw [find?, List.find?_cons_of_neg (by simpa using apart key inside)]
        exact ih rest inside

theorem Distinct.place_eq {table : KeyTable} (distinct : table.Distinct) {i j : Nat} {left right : Key}
    (leftThere : table[i]? = some left) (rightThere : table[j]? = some right)
    (same : left.id = right.id) : i = j := by
  obtain ⟨leftInside, rfl⟩ := List.getElem?_eq_some_iff.1 leftThere
  obtain ⟨rightInside, rfl⟩ := List.getElem?_eq_some_iff.1 rightThere
  have apart := List.pairwise_iff_getElem.1 distinct
  rcases Nat.lt_trichotomy i j with before | rfl | after
  · exact absurd same (apart i j leftInside rightInside before)
  · rfl
  · exact absurd same.symm (apart j i rightInside leftInside after)

theorem Distinct.mem_iff {table : KeyTable} (distinct : table.Distinct) {key : Key} :
    key ∈ table ↔ table.find? key.id = some key :=
  ⟨distinct.find?_of_mem, mem_of_find?⟩

theorem Distinct.find?_eq_some_iff {table : KeyTable} (distinct : table.Distinct) {id : Uuid}
    {key : Key} : table.find? id = some key ↔ key ∈ table ∧ key.id = id := by
  constructor
  · intro found
    exact ⟨mem_of_find? found, id_of_find? found⟩
  · rintro ⟨member, rfl⟩
    exact distinct.find?_of_mem member

theorem Distinct.find?_perm {left right : KeyTable} (distinct : left.Distinct)
    (perm : left.Perm right) (id : Uuid) : left.find? id = right.find? id := by
  have other : right.Distinct := perm.pairwise distinct fun apart => Ne.symm apart
  ext key
  rw [distinct.find?_eq_some_iff, other.find?_eq_some_iff, perm.mem_iff]

theorem Distinct.nodup {table : KeyTable} (distinct : table.Distinct) : table.Nodup :=
  distinct.imp fun apart same => apart (congrArg Key.id same)

theorem Distinct.perm {left right : KeyTable} (leftDistinct : left.Distinct)
    (rightDistinct : right.Distinct) (same : ∀ id, left.find? id = right.find? id) :
    left.Perm right := by
  rw [List.perm_ext_iff_of_nodup leftDistinct.nodup rightDistinct.nodup]
  intro key
  rw [leftDistinct.mem_iff, rightDistinct.mem_iff, same]

/-! ## Tables of lists -/

theorem distinct_foldl {table : KeyTable} (distinct : table.Distinct) (keys : List Key) :
    (keys.foldl insert table).Distinct := by
  induction keys generalizing table with
  | nil => exact distinct
  | cons key keys ih => exact ih (distinct.insert key)

theorem distinct_ofList (keys : List Key) : (ofList keys).Distinct := distinct_foldl distinct_nil keys

theorem find?_foldl {table : KeyTable} {keys : List Key} {id : Uuid} {found : Option Key}
    (agree : ∀ key ∈ keys, key.id = id → some key = found)
    (known : table.find? id = found ∨
      table.find? id = none ∧ (found = none ∨ ∃ key ∈ keys, key.id = id)) :
    (keys.foldl insert table).find? id = found := by
  induction keys generalizing table with
  | nil =>
      rcases known with known | ⟨known, none | ⟨key, inside, -⟩⟩
      · exact known
      · rw [List.foldl_nil, known, none]
      · cases inside
  | cons key keys ih =>
      refine ih (fun other inside => agree other (List.mem_cons_of_mem _ inside)) ?_
      rw [find?_insert]
      by_cases same : id = key.id
      · rw [if_pos same]
        exact .inl (agree key List.mem_cons_self same.symm)
      · rw [if_neg same]
        rcases known with known | ⟨known, none | ⟨other, inside, isId⟩⟩
        · exact .inl known
        · exact .inl (known.trans none.symm)
        · rcases List.mem_cons.1 inside with rfl | inside
          · exact absurd isId.symm same
          · exact .inr ⟨known, .inr ⟨other, inside, isId⟩⟩

theorem find?_foldl_ne_none {table : KeyTable} {keys : List Key} {id : Uuid}
    (known : table.find? id ≠ none ∨ ∃ key ∈ keys, key.id = id) :
    (keys.foldl insert table).find? id ≠ none := by
  induction keys generalizing table with
  | nil => simpa using known
  | cons key keys ih =>
      refine ih ?_
      rw [find?_insert]
      rcases known with known | ⟨other, inside, isId⟩
      · exact .inl (by split <;> simp [known])
      · rcases List.mem_cons.1 inside with rfl | inside
        · exact .inl (by simp [isId])
        · exact .inr ⟨other, inside, isId⟩

theorem find?_ofList_ne_none {keys : List Key} {key : Key} (member : key ∈ keys) :
    (ofList keys).find? key.id ≠ none :=
  find?_foldl_ne_none (.inr ⟨key, member, rfl⟩)

theorem find?_ofList {keys : List Key} {id : Uuid} {found : Option Key}
    (agree : ∀ key ∈ keys, key.id = id → some key = found)
    (there : found = none ∨ ∃ key ∈ keys, key.id = id) : (ofList keys).find? id = found :=
  find?_foldl agree (.inr ⟨rfl, there⟩)

theorem ofList_concat (keys : List Key) (key : Key) :
    ofList (keys ++ [key]) = (ofList keys).insert key := by
  rw [ofList, List.foldl_append]
  rfl

theorem insert_erase (table : KeyTable) (key : Key) :
    (table.erase key.id).insert key = table.insert key := by
  simp [insert, erase]

theorem erase_insert (table : KeyTable) (key : Key) (gone : Uuid) : (table.insert key).erase gone =
    if key.id = gone then table.erase gone else (table.erase gone).insert key := by
  by_cases same : key.id = gone
  · simp [insert, erase, same]
  · simp [insert, erase, same, Bool.and_comm]

theorem erase_foldl (table : KeyTable) (keys : List Key) (gone : Uuid) :
    KeyTable.erase (keys.foldl insert table) gone =
      (keys.filter fun key => key.id != gone).foldl insert (table.erase gone) := by
  induction keys generalizing table with
  | nil => rfl
  | cons key keys ih =>
      rw [List.foldl_cons, ih, erase_insert]
      by_cases same : key.id = gone
      · simp [same]
      · simp [same]

theorem erase_ofList (keys : List Key) (gone : Uuid) :
    (ofList keys).erase gone = ofList (keys.filter fun key => key.id != gone) :=
  erase_foldl [] keys gone

end Bearer.KeyTable
