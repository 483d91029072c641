import Bearer.Proofs.Key.Expiry
import Bearer.Proofs.Key.Signing
/-!
# The stock of encryption keys

* `Stock`: the encryption keys of a keeper, those of its slots before those that the store has
  besides. The store has them all, but for a previous key that is lost.
* `EncryptionStep.stock`, `SigningStep.stock`: a request leaves the stock as it is, or puts a fresh
  key in front and drops the previous one. Only a rotation that tears loses a key.
-/

namespace Bearer

open KeyStore KeyRing

/-! ## What a trail tells of encryption keys -/

def encryptionMints (trail : List AuditEvent) : Nat :=
  trail.countP fun
    | .minted .encryption _ => true
    | _ => false

def Taken (origin : Store) (trail : List AuditEvent) (id : Uuid) : Prop :=
  id ∈ mintedIds trail ∨ ∃ keyClass, held origin keyClass id ≠ none

theorem encryptionMints_append (first second : List AuditEvent) :
    encryptionMints (first ++ second) = encryptionMints first + encryptionMints second :=
  List.countP_append

theorem Taken.append {origin : Store} {trail : List AuditEvent} {id : Uuid}
    (taken : Taken origin trail id) (events : List AuditEvent) :
    Taken origin (trail ++ events) id := by
  rw [Taken, mintedIds_append, List.mem_append]
  exact taken.imp_left .inl

theorem FreshIds.of_append {origin : Store} {trail events : List AuditEvent}
    (fresh : FreshIds origin (trail ++ events)) : FreshIds origin trail := by
  obtain ⟨distinct, foreign⟩ := fresh
  rw [mintedIds_append] at distinct foreign
  exact ⟨(List.nodup_append.1 distinct).1, fun id minted => foreign id (List.mem_append_left _ minted)⟩

theorem FreshIds.not_taken {origin : Store} {trail events : List AuditEvent}
    (fresh : FreshIds origin (trail ++ events)) {id : Uuid} (minted : id ∈ mintedIds events) :
    ¬Taken origin trail id := by
  obtain ⟨distinct, foreign⟩ := fresh
  rw [mintedIds_append] at distinct foreign
  rintro (before | ⟨keyClass, there⟩)
  · exact (List.nodup_append.1 distinct).2.2 id before id minted rfl
  · exact there (foreign id (List.mem_append_right _ minted) keyClass)

theorem encryptionMints_rotationEvents (previous : Option Key) (key : Key) :
    encryptionMints (Keeper.rotationEvents previous key) = 1 := by
  cases previous <;> rfl

theorem encryptionMints_loadedEvents (ring : KeyRing) : encryptionMints ring.loadedEvents = 0 := by
  simp [encryptionMints, KeyRing.loadedEvents, List.countP_map, Function.comp_def]

/-! ## Lists of keys -/

def shift (key : Key) (keys : List Key) : List Key := key :: keys.eraseIdx 1

theorem find?_shift {keys : KeyTable} (distinct : keys.Distinct) (key : Key) (id : Uuid) :
    KeyTable.find? (shift key keys) id = if id = key.id then some key
      else if keys[1]?.map Key.id = some id then none else keys.find? id := by
  have rest : KeyTable.find? (keys.eraseIdx 1) id =
      if keys[1]?.map Key.id = some id then none else keys.find? id := by
    match keys, distinct with
    | [], _ => rfl
    | [_], _ => rfl
    | current :: previous :: older, distinct =>
        obtain ⟨apart, distinct⟩ := List.pairwise_cons.1 distinct
        obtain ⟨below, -⟩ := List.pairwise_cons.1 distinct
        change KeyTable.find? (current :: older) id = if some previous.id = some id then none
          else KeyTable.find? (current :: previous :: older) id
        by_cases isPrevious : previous.id = id
        · subst isPrevious
          have differs := apart previous List.mem_cons_self
          rw [if_pos rfl, KeyTable.find?, List.find?_eq_none]
          intro other inside
          rcases List.mem_cons.1 inside with rfl | inside
          · simpa using differs
          · simpa using (below other inside).symm
        · rw [if_neg (fun same => isPrevious (Option.some.inj same))]
          simp [KeyTable.find?, List.find?_cons, isPrevious]
  rw [← rest, shift, KeyTable.find?, List.find?_cons]
  by_cases same : id = key.id
  · simp [same]
  · rw [if_neg same, beq_eq_false_iff_ne.2 (Ne.symm same)]
    rfl

theorem drop_shift (key : Key) (keys : KeyTable) : (shift key keys).drop 2 = keys.drop 2 := by
  match keys with
  | [] => rfl
  | [_] => rfl
  | _ :: _ :: _ => rfl

structure InOrder (keys : KeyTable) : Prop where
  descending : Descending keys
  fit : ∀ key ∈ keys, key.id.isNil = false ∧ key.secret ≠ []

theorem InOrder.le_of_invalid {keys : KeyTable} {now : Instant} (inOrder : InOrder keys)
    (invalid : ∀ current, keys[0]? = some current → current.isValid now = false) :
    ∀ key ∈ keys, key.expiresAt ≤ now := by
  obtain ⟨descending, fit⟩ := inOrder
  cases keys with
  | nil => intro key inside; cases inside
  | cons current older =>
      obtain ⟨named, secret⟩ := fit current List.mem_cons_self
      have expired := Key.le_of_isValid_eq_false named secret (invalid current rfl)
      intro key inside
      rcases List.mem_cons.1 inside with rfl | inside
      · exact expired
      · exact Instant.le_trans
          (Instant.le_of_lt ((List.pairwise_cons.1 descending).1 key inside)) expired

theorem InOrder.shift {keys : KeyTable} {now : Instant} {draw : KeyDraw} {key : Key}
    (inOrder : InOrder keys) (minted : Key.mint now draw = .ok key)
    (invalid : ∀ current, keys[0]? = some current → current.isValid now = false) :
    InOrder (shift key keys) where
  descending := by
    refine List.pairwise_cons.2 ⟨fun other inside => ?_,
      inOrder.descending.sublist (List.eraseIdx_sublist keys 1)⟩
    exact Instant.lt_of_le_of_lt
      (inOrder.le_of_invalid invalid other (List.mem_of_mem_eraseIdx inside))
      (Key.of_mint minted).2
  fit other inside := by
    rcases List.mem_cons.1 inside with rfl | inside
    · exact Key.fit_of_mint minted
    · exact inOrder.fit other (List.mem_of_mem_eraseIdx inside)

theorem inOrder_sortByExpiry {keys : KeyTable} (nodup : keys.Nodup)
    (fit : ∀ key ∈ keys, key.id.isNil = false ∧ key.secret ≠ [])
    (apart : ∀ key ∈ keys, ∀ other ∈ keys, key.expiresAt = other.expiresAt → key = other) :
    InOrder (sortByExpiry keys) where
  descending := descending_sortByExpiry nodup apart
  fit key inside := fit key ((sortByExpiry_perm keys).mem_iff.1 inside)

theorem InOrder.sortByExpiry {keys found : KeyTable} (inOrder : InOrder keys) (nodup : found.Nodup)
    (within : ∀ key ∈ found, key ∈ keys) : InOrder (sortByExpiry found) := by
  refine inOrder_sortByExpiry nodup (fun key inside => inOrder.fit key (within key inside)) ?_
  intro key inside other otherInside
  exact inOrder.descending.eq_of_expiresAt (within key inside) (within other otherInside)

structure Dated {σ : Type} [KeyStore σ] (store : σ) (keyClass : KeyClass) : Prop where
  fit : ∀ key ∈ table store keyClass, key.id.isNil = false ∧ key.secret ≠ []
  apart : ∀ key ∈ table store keyClass, ∀ other ∈ table store keyClass,
    key.expiresAt = other.expiresAt → key = other

theorem Dated.inOrder {σ : Type} [KeyStore σ] [LawfulKeyStore σ] {store : σ} {keyClass : KeyClass}
    (dated : Dated store keyClass) (sound : LawfulKeyStore.Sound store) :
    InOrder (KeyRing.sortByExpiry (table store keyClass)) :=
  inOrder_sortByExpiry (LawfulKeyStore.readable sound keyClass).2.nodup dated.fit dated.apart

namespace Keeper

variable {σ : Type} [KeyStore σ]

/-- A rotation that has removed the previous key and then could not save the next one. -/
structure Tears (keeper after : Keeper σ) (outcome : Except Error Key) (previous : Key) : Prop where
  slot : keeper.ring.encryption.previous = some previous
  stored : held keeper.store .encryption previous.id = some previous
  failed : ∃ fault, outcome = .error (.store (.saving false) fault)
  removed : held after.store .encryption previous.id = none

structure Forgotten (keeper : Keeper σ) (key : Key) : Prop where
  current : ∀ other, keeper.ring.encryption.current = some other → other.id ≠ key.id
  previous : ∀ other, keeper.ring.encryption.previous = some other → other.id ≠ key.id
  store : held keeper.store .encryption key.id = none

variable [LawfulKeyStore σ]

/-- These are the encryption keys of a keeper, those in its slots first. -/
structure Stock (origin : Store) (keeper : Keeper σ) (keys : KeyTable) (lost : Key → Prop) :
    Prop where
  sound : LawfulKeyStore.Sound keeper.store
  distinct : keys.Distinct
  current : keeper.ring.encryption.current = keys[0]?
  previous : keeper.ring.encryption.previous = keys[1]?
  agree : ∀ id, held keeper.store .encryption id = keys.find? id ∨
    held keeper.store .encryption id = none ∧
      ∃ previous, keys[1]? = some previous ∧ previous.id = id ∧ lost previous
  taken : ∀ key ∈ keys, Taken origin keeper.trail key.id

section Stock

variable {origin : Store} {keeper after : Keeper σ} {keys : KeyTable} {lost : Key → Prop}

theorem Stock.mono {other : Key → Prop} (stock : Stock origin keeper keys lost)
    (weaker : ∀ previous, keys[1]? = some previous → lost previous → other previous) :
    Stock origin keeper keys other :=
  { stock with
    agree := fun id => (stock.agree id).imp_right fun ⟨absent, previous, there, isId, isLost⟩ =>
      ⟨absent, previous, there, isId, weaker previous there isLost⟩ }

theorem Stock.keep {events : List AuditEvent} (stock : Stock origin keeper keys lost)
    (sound : LawfulKeyStore.Sound after.store)
    (slots : after.ring.encryption = keeper.ring.encryption)
    (trail : after.trail = keeper.trail ++ events)
    (holds : ∀ id, held after.store .encryption id = held keeper.store .encryption id ∨
      held after.store .encryption id = none ∧
        ∃ previous, keys[1]? = some previous ∧ previous.id = id ∧ lost previous) :
    Stock origin after keys lost where
  sound
  distinct := stock.distinct
  current := by rw [slots, stock.current]
  previous := by rw [slots, stock.previous]
  agree id := by
    rcases holds id with same | gone
    · rw [same]
      exact stock.agree id
    · exact .inr gone
  taken key inside := trail ▸ (stock.taken key inside).append events

theorem Stock.mint {key : Key} {store : σ} {events : List AuditEvent}
    (stock : Stock origin keeper keys lost) (foreign : ¬Taken origin keeper.trail key.id)
    (minted : key.id ∈ mintedIds events) (sound : LawfulKeyStore.Sound store)
    (holds : ∀ id, held store .encryption id = if id = key.id then some key
      else if keys[1]?.map Key.id = some id then none else held keeper.store .encryption id) :
    Stock origin ⟨keeper.ring.installEncryptionKey key, store, keeper.trail ++ events⟩
      (shift key keys) (fun _ => False) where
  sound
  distinct := by
    refine List.pairwise_cons.2 ⟨fun other inside same => ?_,
      stock.distinct.sublist (List.eraseIdx_sublist keys 1)⟩
    exact foreign (same ▸ stock.taken other (List.mem_of_mem_eraseIdx inside))
  current := rfl
  previous := by
    refine stock.current.trans ?_
    cases keys <;> rfl
  agree id := by
    left
    rw [holds, find?_shift stock.distinct]
    split
    · rfl
    · split
      · rfl
      · next kept =>
          rcases stock.agree id with same | ⟨-, previous, there, isId, -⟩
          · exact same
          · rw [there, Option.map_some, isId] at kept
            exact absurd rfl kept
  taken other inside := by
    rcases List.mem_cons.1 inside with rfl | inside
    · exact .inl (by rw [mintedIds_append]; exact List.mem_append_right _ minted)
    · exact (stock.taken other (List.mem_of_mem_eraseIdx inside)).append events

/-! ## What the store holds -/

theorem Stock.held_of_ne (stock : Stock origin keeper keys lost) {place : Nat} {key : Key}
    (there : keys[place]? = some key) (other : place ≠ 1) :
    held keeper.store .encryption key.id = some key := by
  rcases stock.agree key.id with same | ⟨-, previous, second, isId, -⟩
  · rw [same, stock.distinct.find?_of_mem (List.mem_of_getElem? there)]
  · exact absurd (stock.distinct.place_eq there second isId.symm) other

theorem Stock.held_drop (stock : Stock origin keeper keys lost) {key : Key}
    (inside : key ∈ keys.drop 2) : held keeper.store .encryption key.id = some key := by
  obtain ⟨place, there⟩ := List.mem_iff_getElem?.1 inside
  rw [List.getElem?_drop] at there
  exact stock.held_of_ne there (by omega)

theorem Stock.held_previous (stock : Stock origin keeper keys lost) {key : Key}
    (previous : keys[1]? = some key) :
    held keeper.store .encryption key.id = some key ∨
      held keeper.store .encryption key.id = none ∧ lost key := by
  rcases stock.agree key.id with same | ⟨absent, other, there, -, isLost⟩
  · left
    rw [same, stock.distinct.find?_of_mem (List.mem_of_getElem? previous)]
  · obtain rfl := Option.some.inj (previous.symm.trans there)
    exact .inr ⟨absent, isLost⟩

theorem Stock.mem_of_held (stock : Stock origin keeper keys lost) {id : Uuid} {key : Key}
    (there : held keeper.store .encryption id = some key) : key ∈ keys ∧ key.id = id := by
  rcases stock.agree id with same | ⟨absent, -⟩
  · rw [same] at there
    exact ⟨KeyTable.mem_of_find? there, KeyTable.id_of_find? there⟩
  · rw [absent] at there
    cases there

theorem Stock.perm (stock : Stock origin keeper keys lost) (settled : ∀ previous, ¬lost previous) :
    (table keeper.store .encryption).Perm keys := by
  refine (LawfulKeyStore.readable stock.sound .encryption).2.perm stock.distinct fun id => ?_
  exact (stock.agree id).resolve_right fun ⟨_, previous, _, _, isLost⟩ => settled previous isLost

/-! ## Steps -/

theorem EncryptionStep.stock {now : Instant} {draw : KeyDraw} {outcome : Except Error Key}
    (stock : Stock origin keeper keys lost) (step : EncryptionStep keeper now draw outcome after)
    (fresh : FreshIds origin after.trail) :
    (encryptionMints after.trail = encryptionMints keeper.trail ∧ Stock origin after keys
      fun previous => lost previous ∨ Tears keeper after outcome previous) ∨
    encryptionMints after.trail = encryptionMints keeper.trail + 1 ∧
      ∃ key, outcome = .ok key ∧ Key.mint now draw = .ok key ∧
        (∀ current, keeper.ring.encryption.current = some current →
          current.isValid now = false) ∧
        ¬Taken origin keeper.trail key.id ∧ Stock origin after (shift key keys) fun _ => False := by
  cases step with
  | valid | calendarEnds => exact .inl ⟨rfl, stock.mono fun _ _ => .inl⟩
  | undrawn =>
      refine .inl ⟨encryptionMints_append _ _, ?_⟩
      exact (stock.mono fun _ _ => .inl).keep stock.sound rfl rfl fun _ => .inl rfl
  | unremoved minted held failed =>
      obtain ⟨sound, same⟩ := LawfulKeyStore.unremoved stock.sound failed
      refine .inl ⟨encryptionMints_append _ _, ?_⟩
      exact (stock.mono fun _ _ => .inl).keep sound rfl rfl fun id => .inl (same .encryption id)
  | @unsaved key cleared store fault minted removed failed =>
      obtain ⟨between, clears⟩ := removed.holds stock.sound
      obtain ⟨sound, same⟩ := LawfulKeyStore.unsaved between failed
      refine .inl ⟨encryptionMints_append _ _, ?_⟩
      refine (stock.mono fun _ _ => .inl).keep sound rfl rfl fun id => ?_
      have holds := (same .encryption id).trans (clears .encryption id)
      simp only [true_and] at holds
      split at holds
      · next isPrevious =>
          obtain ⟨previous, slot, rfl⟩ := Option.map_eq_some_iff.1 isPrevious
          -- Only the previous key can be lost, and it is lost now unless it was so before.
          have there : keys[1]? = some previous := stock.previous.symm.trans slot
          rcases stock.held_previous there with stored | ⟨absent, -⟩
          · exact .inr ⟨holds, previous, there, rfl, .inr ⟨slot, stored, ⟨fault, rfl⟩, holds⟩⟩
          · exact .inl (holds.trans absent.symm)
      · exact .inl holds
  | @minted key cleared store minted invalid removed saved =>
      obtain ⟨between, clears⟩ := removed.holds stock.sound
      obtain ⟨sound, holds⟩ := LawfulKeyStore.saved between saved
      have told : key.id ∈ mintedIds (rotationEvents keeper.ring.encryption.previous key) := by
        rw [mintedIds_rotationEvents]
        exact List.mem_singleton_self _
      have foreign := fresh.not_taken told
      refine .inr ⟨?_, key, rfl, minted, invalid, foreign,
        stock.mint foreign told sound fun id => ?_⟩
      · rw [encryptionMints_append, encryptionMints_rotationEvents]
      · rw [holds, clears, stock.previous]
        simp only [true_and]

theorem SigningStep.stock {now : Instant} {draw : KeyDraw} {outcome : Except Error Key}
    (stock : Stock origin keeper keys lost) (step : SigningStep keeper now draw outcome after) :
    encryptionMints after.trail = encryptionMints keeper.trail ∧
      Stock origin after keys lost := by
  cases step with
  | valid | calendarEnds => exact ⟨rfl, stock⟩
  | undrawn =>
      refine ⟨encryptionMints_append _ _, ?_⟩
      exact stock.keep stock.sound rfl rfl fun _ => .inl rfl
  | unsaved minted failed =>
      obtain ⟨sound, same⟩ := LawfulKeyStore.unsaved stock.sound failed
      refine ⟨encryptionMints_append _ _, ?_⟩
      exact stock.keep sound rfl rfl fun id => .inl (same .encryption id)
  | minted minted saved =>
      obtain ⟨sound, holds⟩ := LawfulKeyStore.saved stock.sound saved
      refine ⟨encryptionMints_append _ _, ?_⟩
      exact stock.keep sound rfl rfl fun id => .inl ((holds .encryption id).trans (by simp))

theorem stock_reload (sound : LawfulKeyStore.Sound keeper.store)
    (taken : ∀ key ∈ table keeper.store .encryption, Taken origin keeper.trail key.id) :
    Stock origin keeper.reload (sortByExpiry (table keeper.store .encryption)) fun _ => False := by
  have distinct := (LawfulKeyStore.readable sound .encryption).2
  have perm := sortByExpiry_perm (table keeper.store .encryption)
  rw [reload_of_sound sound]
  exact
    { sound
      distinct := perm.symm.pairwise distinct fun apart => Ne.symm apart
      current := rfl
      previous := rfl
      agree id := .inl (distinct.find?_perm perm.symm id)
      taken key inside := (taken key (perm.mem_iff.1 inside)).append _ }

end Stock

end Keeper

end Bearer
