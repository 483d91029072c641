import Bearer.Proofs.Key.Change
/-!
# What rotations delete

* `Ranked`: of the keys in the slots, the previous one expires no later than the current one, if it is
  fit for use at all. Keys that are not fit have been in the store from the start.
* `rotation_deletes_unusable`: so that a rotation deletes no key that is still valid, unless the current
  key was never fit. `unfit_key_costs_a_valid_one` is what happens then.
-/

namespace Bearer

open KeyStore KeyRing

namespace Keeper

variable {σ : Type} [KeyStore σ]

structure Ranked (first : KeyTable) (keeper : Keeper σ) : Prop where
  stored : ∀ id key, held keeper.store .encryption id = some key → key.Fit ∨ key ∈ first
  current : ∀ current, keeper.ring.encryption.current = some current →
    (current.Fit ∨ current ∈ first) ∧
      ∀ found, held keeper.store .encryption current.id = some found → found = current
  previous : ∀ previous, keeper.ring.encryption.previous = some previous →
    ∃ current, keeper.ring.encryption.current = some current ∧
      (previous.Fit → previous.expiresAt ≤ current.expiresAt) ∧
      ∀ found, held keeper.store .encryption previous.id = some found →
        found = previous ∨ found = current

variable {first : KeyTable} {keeper : Keeper σ}

theorem Ranked.unusable (ranked : keeper.Ranked first) {now : Instant}
    (invalid : ∀ current, keeper.ring.encryption.current = some current →
      current.isValid now = false) {previous key : Key}
    (slot : keeper.ring.encryption.previous = some previous)
    (there : held keeper.store .encryption previous.id = some key) :
    key.isValid now = false ∨
      ∃ current, keeper.ring.encryption.current = some current ∧ ¬current.Fit ∧ current ∈ first := by
  obtain ⟨current, isCurrent, notLater, oneOf⟩ := ranked.previous previous slot
  have late := invalid current isCurrent
  rcases oneOf key there with rfl | rfl
  · by_cases fit : current.Fit
    · left
      rw [Bool.eq_false_iff, ne_eq, Key.isValid_iff]
      rintro ⟨keyFit, early⟩
      have expired := Key.le_of_isValid_eq_false fit.1 fit.2 late
      exact Instant.lt_irrefl _
        (Instant.lt_of_le_of_lt (Instant.le_trans (notLater keyFit) expired) early)
    · exact .inr ⟨current, isCurrent, fit, (ranked.current current isCurrent).1.resolve_left fit⟩
  · exact .inl late

theorem Ranked.fewer {after : Keeper σ} (ranked : keeper.Ranked first)
    (slots : after.ring.encryption = keeper.ring.encryption)
    (fewer : ∀ id key, held after.store .encryption id = some key →
      held keeper.store .encryption id = some key) : after.Ranked first where
  stored id key there := ranked.stored id key (fewer id key there)
  current := by
    intro current isCurrent
    rw [slots] at isCurrent
    obtain ⟨known, unique⟩ := ranked.current current isCurrent
    exact ⟨known, fun found there => unique found (fewer _ found there)⟩
  previous := by
    intro previous isPrevious
    rw [slots] at isPrevious ⊢
    obtain ⟨current, isCurrent, notLater, oneOf⟩ := ranked.previous previous isPrevious
    exact ⟨current, isCurrent, notLater, fun found there => oneOf found (fewer _ found there)⟩

theorem Ranked.rotate {after : Keeper σ} {minted : Key} {now : Instant}
    {outcome : Except Error Key} {events : List AuditEvent} (ranked : keeper.Ranked first)
    (invalid : ∀ current, keeper.ring.encryption.current = some current →
      current.isValid now = false)
    (rotates : Rotates minted keeper after outcome events) (valid : minted.isValid now = true) :
    after.Ranked first := by
  obtain ⟨fit, early⟩ := Key.isValid_iff.1 valid
  have before (id : Uuid) (key : Key) (other : id ≠ minted.id)
      (there : held after.store .encryption id = some key) :
      held keeper.store .encryption id = some key := by
    rw [rotates.holds, if_neg other] at there
    split at there
    · cases there
    · exact there
  have own : held after.store .encryption minted.id = some minted := by
    rw [rotates.holds, if_pos rfl]
  constructor
  · intro id key there
    by_cases isMinted : id = minted.id
    · rw [isMinted, own] at there
      exact .inl (Option.some.inj there ▸ fit)
    · exact ranked.stored id key (before id key isMinted there)
  · rw [rotates.slots]
    rintro _ ⟨⟩
    exact ⟨.inl fit, fun found there => Option.some.inj (there.symm.trans own)⟩
  · rw [rotates.slots]
    intro previous isPrevious
    refine ⟨minted, rfl, fun fitBefore => ?_, fun found there => ?_⟩
    · have expired := Key.le_of_isValid_eq_false fitBefore.1 fitBefore.2
        (invalid previous isPrevious)
      exact Instant.le_of_lt (Instant.lt_of_le_of_lt expired early)
    -- If the new key has its identifier, the store holds the new key in its place.
    · by_cases isMinted : previous.id = minted.id
      · rw [isMinted, own] at there
        exact .inr (Option.some.inj there).symm
      · exact .inl ((ranked.current previous isPrevious).2 found (before _ found isMinted there))

variable [LawfulKeyStore σ]

theorem Ranked.reload (ranked : keeper.Ranked first)
    (sound : LawfulKeyStore.Sound keeper.store) : keeper.reload.Ranked first := by
  have slotted (key : Key) (isSlotted : keeper.reload.ring.Slotted key) :
      held keeper.store .encryption key.id = some key := held_of_slotted_reload sound isSlotted
  have unique (key : Key) (isSlotted : keeper.reload.ring.Slotted key) (found : Key)
      (there : held keeper.store .encryption key.id = some found) : found = key :=
    Option.some.inj (there.symm.trans (slotted key isSlotted))
  constructor
  · rw [store_reload sound]
    exact ranked.stored
  · intro current isCurrent
    rw [store_reload sound]
    exact ⟨ranked.stored _ _ (slotted current (.inl isCurrent)), unique current (.inl isCurrent)⟩
  · intro previous isPrevious
    have second := isPrevious
    rw [reload_of_sound sound] at second
    obtain ⟨long, isSecond⟩ := List.getElem?_eq_some_iff.1 second
    have isFirst := List.getElem?_eq_getElem (Nat.lt_trans Nat.zero_lt_one long)
    refine ⟨_, (by rw [reload_of_sound sound]; exact isFirst), fun _ => ?_, fun found there => ?_⟩
    · rw [← isSecond]
      exact List.pairwise_iff_getElem.1 (sorted_sortByExpiry _) 0 1 _ _ Nat.zero_lt_one
    · rw [store_reload sound] at there
      exact .inl (unique previous (.inr isPrevious) found there)

theorem Ranked.ask (ranked : keeper.Ranked first) (sound : LawfulKeyStore.Sound keeper.store)
    (request : Request) : (keeper.operate (.ask request)).Ranked first := by
  obtain ⟨events, -, -, change⟩ := change_of_ask sound request
  cases change with
  | none spares =>
      apply ranked.fewer spares.slots
      intro id key there
      rwa [spares.same] at there
  | removed _ removes =>
      apply ranked.fewer removes.slots
      intro id key there
      rw [removes.holds] at there
      split at there
      · cases there
      · exact there
  | rotated invalid rotates =>
      have answered : perform request.ask keeper = (.ok _, (perform request.ask keeper).2) :=
        Prod.ext rotates.answered rfl
      exact ranked.rotate invalid rotates (Request.current_of_ask answered).1

theorem ranked_run {store : σ} (sound : LawfulKeyStore.Sound store) (operations : List Operation) :
    ((opened store).run operations).Ranked (table store .encryption) := by
  induction operations using List.reverseRecOn with
  | nil =>
      have empty : Ranked (table store .encryption) (⟨.empty, store, []⟩ : Keeper σ) :=
        ⟨fun _ _ there => .inr (KeyTable.mem_of_find? there), fun _ slot => (nomatch slot),
          fun _ slot => (nomatch slot)⟩
      exact empty.reload sound
  | append_singleton operations operation ih =>
      have soundStill := (run_coherent_extends (coherent_opened sound) operations).1.sound
      rw [run_concat]
      cases operation with
      | reload => exact ih.reload soundStill
      | ask request => exact ih.ask soundStill request

/-- Let a ring be loaded from a store, whatever keys it has, and let it be asked for keys at any times,
whichever writes to the store fail, and be loaded anew at times. When a request then removes a key from
the store, that key is not valid at the time of the request, unless the current key of the ring is not
fit for use. Such a current key has been in the store from the start. -/
theorem rotation_deletes_unusable {store : σ} (sound : LawfulKeyStore.Sound store)
    (operations : List Operation) (request : Request) {keeper after : Keeper σ}
    (isRun : keeper = (opened store).run operations)
    (isAfter : after = keeper.operate (.ask request)) {id : Uuid} {key : Key}
    (there : held keeper.store .encryption id = some key)
    (gone : held after.store .encryption id = none) :
    key.isValid request.now = false ∨ ∃ current, keeper.ring.encryption.current = some current ∧
      ¬current.Fit ∧ current ∈ table store .encryption := by
  have ranked : keeper.Ranked (table store .encryption) := isRun ▸ ranked_run sound operations
  have soundStill : LawfulKeyStore.Sound keeper.store :=
    isRun ▸ (run_coherent_extends (coherent_opened sound) operations).1.sound
  subst isAfter
  obtain ⟨events, -, -, change⟩ := change_of_ask soundStill request
  cases change with
  | none spares =>
      rw [spares.same, there] at gone
      cases gone
  | removed invalid removes =>
      rw [removes.holds, there] at gone
      split at gone
      · next isPrevious =>
          obtain ⟨previous, slot, rfl⟩ := Option.map_eq_some_iff.1 isPrevious
          exact ranked.unusable invalid slot there
      · cases gone
  | rotated invalid rotates =>
      rw [rotates.holds, there] at gone
      split at gone
      · cases gone
      · split at gone
        · next isPrevious =>
            obtain ⟨previous, slot, rfl⟩ := Option.map_eq_some_iff.1 isPrevious
            exact ranked.unusable invalid slot there
        · cases gone

theorem torn_rotation_deletes_expired :
    held (sampleLoaded.run (tornRotation.take 1)).store .encryption (sampleDraw 8).id =
        some (sampleKey 8 1) ∧
      held (sampleLoaded.run tornRotation).store .encryption (sampleDraw 8).id = none ∧
      (sampleKey 8 1).isValid (sampleDay 1000) = false := by
  have there : held (sampleLoaded.run (tornRotation.take 1)).store .encryption (sampleDraw 8).id =
      some (sampleKey 8 1) := by decide
  have gone : held (sampleLoaded.run tornRotation).store .encryption (sampleDraw 8).id = none := by
    decide
  refine ⟨there, gone, ?_⟩
  have ready : LawfulKeyStore.Sound
      (Unreliable.mk sampleShelf [none, none, some (.unopened, .backend .savesDisabled)]) :=
    filled_sampleShelf.sound
  rcases rotation_deletes_unusable ready (tornRotation.take 1)
    ⟨.encryption, sampleDay 1000, sampleDraw 1⟩ rfl rfl there gone with
    expired | ⟨current, slot, unfit, -⟩
  · exact expired
  · obtain rfl : sampleKey 9 2 = current := Option.some.inj slot
    exact absurd (by decide) unfit

def unfitLoaded : Keeper Store :=
  opened ([⟨(sampleDraw 9).id, [], sampleDay 2000⟩, sampleKey 8 1000].foldl
    (fun store key => (perform (save .encryption key (sampleDraw 0).nonce) store).2) (.memory .empty))

theorem unfit_key_costs_a_valid_one :
    (sampleKey 8 1000).isValid (sampleDay 5) = true ∧
      held unfitLoaded.store .encryption (sampleDraw 8).id = some (sampleKey 8 1000) ∧
      held (unfitLoaded.operate (.ask ⟨.encryption, sampleDay 5, sampleDraw 1⟩)).store .encryption
        (sampleDraw 8).id = none := by
  decide

end Keeper

end Bearer
