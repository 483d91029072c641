import Bearer.Proofs.Key.Request
import Bearer.Proofs.Key.Stock
import Mathlib.Data.List.Induction
/-!
# The ring and its store

* `run_stock`: a run keeps the stock of encryption keys. The store can lack the previous key only after
  a rotation that is half done.
* `Consistent`: how the ring and its store agree after a run, and what the next request answers
  (`run_consistent`).
-/

namespace Bearer

open KeyStore KeyRing

namespace Keeper

variable {σ : Type} [KeyStore σ]

/-- An encryption key that the store has besides those in the slots. -/
def Spare (keeper : Keeper σ) (key : Key) : Prop :=
  held keeper.store .encryption key.id = some key ∧ ¬keeper.ring.Slotted key

/-- The last rotation that got as far as the store removed this key, and none has been saved since. -/
def HalfDone (loaded : Keeper σ) (operations : List Operation) (previous : Key) : Prop :=
  ∃ before request rest, operations = before ++ .ask request :: rest ∧
    Tears (loaded.run before) (loaded.run (before ++ [.ask request]))
      (perform request.ask (loaded.run before)).1 previous ∧
    .reload ∉ rest ∧
    encryptionMints (loaded.run operations).trail = encryptionMints (loaded.run before).trail

theorem HalfDone.concat {loaded : Keeper σ} {operations : List Operation} {previous : Key}
    (halfDone : HalfDone loaded operations previous) {operation : Operation}
    (goesOn : operation ≠ .reload)
    (noMint : encryptionMints (loaded.run (operations ++ [operation])).trail =
      encryptionMints (loaded.run operations).trail) :
    HalfDone loaded (operations ++ [operation]) previous := by
  obtain ⟨before, request, rest, rfl, tears, noReload, still⟩ := halfDone
  refine ⟨before, request, rest ++ [operation], by simp, tears, ?_, noMint.trans still⟩
  rw [List.mem_append, List.mem_singleton, not_or]
  exact ⟨noReload, goesOn.symm⟩

/-! ## The trail of a run -/

theorem trail_operate (keeper : Keeper σ) (operation : Operation) :
    ∃ events, (keeper.operate operation).trail = keeper.trail ++ events := by
  cases operation with
  | ask request =>
      rcases Request.ask_step (rfl : perform request.ask keeper = _) with ⟨-, step⟩ | ⟨-, step⟩
      · obtain ⟨events, trail, -⟩ := step.extends
        exact ⟨events, trail⟩
      · obtain ⟨events, trail, -⟩ := step.extends
        exact ⟨events, trail⟩
  | reload => exact trail_reload keeper

theorem trail_run (keeper : Keeper σ) (operations : List Operation) :
    ∃ events, (keeper.run operations).trail = keeper.trail ++ events := by
  induction operations using List.reverseRecOn with
  | nil => exact ⟨[], (List.append_nil _).symm⟩
  | append_singleton operations operation ih =>
      obtain ⟨begins, isBetween⟩ := ih
      obtain ⟨goesOn, isLast⟩ := trail_operate (keeper.run operations) operation
      exact ⟨begins ++ goesOn, by rw [run_concat, isLast, isBetween, List.append_assoc]⟩

theorem encryptionMints_run (keeper : Keeper σ) (operations : List Operation) :
    encryptionMints keeper.trail ≤ encryptionMints (keeper.run operations).trail := by
  obtain ⟨events, trail⟩ := trail_run keeper operations
  rw [trail, encryptionMints_append]
  exact Nat.le_add_right _ _

theorem HalfDone.not_minted {loaded : Keeper σ} {operations : List Operation} {operation : Operation}
    {previous : Key} (halfDone : HalfDone loaded (operations ++ [operation]) previous) :
    ¬encryptionMints (loaded.run operations).trail <
      encryptionMints (loaded.run (operations ++ [operation])).trail := by
  obtain ⟨before, request, rest, whole, -, -, still⟩ := halfDone
  obtain ⟨more, rfl⟩ : ∃ more, operations = before ++ more := by
    cases rest using List.reverseRecOn with
    | nil => exact ⟨[], by simpa using (List.append_inj_left' whole rfl)⟩
    | append_singleton rest last =>
        rw [← List.cons_append, ← List.append_assoc] at whole
        exact ⟨_, List.append_inj_left' whole rfl⟩
  rw [still, run_append]
  exact Nat.not_lt.2 (encryptionMints_run _ more)

variable [LawfulKeyStore σ]

/-! ## Runs -/

theorem operate_coherent_extends {keeper : Keeper σ} (coherent : keeper.Coherent)
    (operation : Operation) :
    (keeper.operate operation).Coherent ∧ Extends keeper (keeper.operate operation) := by
  cases operation with
  | ask request =>
      rcases Request.ask_step (rfl : perform request.ask keeper = _) with ⟨-, step⟩ | ⟨-, step⟩
      · exact ⟨step.coherent coherent, step.extends⟩
      · exact ⟨step.coherent coherent, step.extends⟩
  | reload => exact ⟨coherent_reload coherent.sound, extends_reload coherent⟩

theorem run_coherent_extends {keeper : Keeper σ} (coherent : keeper.Coherent)
    (operations : List Operation) :
    (keeper.run operations).Coherent ∧ Extends keeper (keeper.run operations) := by
  induction operations using List.reverseRecOn with
  | nil => exact ⟨coherent, .refl _⟩
  | append_singleton operations operation ih =>
      obtain ⟨between, first⟩ := ih
      obtain ⟨after, second⟩ := operate_coherent_extends between operation
      rw [run_concat]
      exact ⟨after, first.trans second⟩

theorem operate_stock {origin : Store} {loaded : Keeper σ} {keys : KeyTable}
    {operations : List Operation}
    (stock : Stock origin (loaded.run operations) keys (HalfDone loaded operations))
    (operation : Operation)
    (fresh : FreshIds origin (loaded.run (operations ++ [operation])).trail) :
    ∃ later, Stock origin (loaded.run (operations ++ [operation])) later
        (HalfDone loaded (operations ++ [operation])) ∧
      (operation ≠ .reload → later.drop 2 = keys.drop 2) ∧ (InOrder keys → InOrder later) := by
  have next := run_concat loaded operations operation
  cases operation with
  | ask request =>
      rw [next] at fresh ⊢
      rcases Request.ask_step (rfl : perform request.ask (loaded.run operations) = _) with
        ⟨-, step⟩ | ⟨-, step⟩
      · obtain ⟨noMint, kept⟩ := step.stock stock
        refine ⟨keys, kept.mono fun previous _ halfDone => ?_, fun _ => rfl, id⟩
        exact halfDone.concat nofun (next ▸ noMint)
      · rcases step.stock stock fresh with ⟨noMint, kept⟩ |
          ⟨-, key, -, minted, invalid, -, shifted⟩
        · refine ⟨keys, kept.mono fun previous _ cause => ?_, fun _ => rfl, id⟩
          rcases cause with halfDone | tears
          · exact halfDone.concat nofun (next ▸ noMint)
          · exact ⟨operations, request, [], rfl, next ▸ tears, List.not_mem_nil, next ▸ noMint⟩
        · exact ⟨shift key keys, shifted.mono fun _ _ => False.elim, fun _ => drop_shift key keys,
            fun inOrder => inOrder.shift minted (stock.current ▸ invalid)⟩
  | reload =>
      rw [next]
      have distinct := (LawfulKeyStore.readable stock.sound .encryption).2
      have within (key : Key) (inside : key ∈ table (loaded.run operations).store .encryption) :
          key ∈ keys := (stock.mem_of_held (distinct.find?_of_mem inside)).1
      refine ⟨_, (stock_reload stock.sound fun key inside => ?_).mono fun _ _ => False.elim,
        fun again => absurd rfl again, fun inOrder => inOrder.sortByExpiry distinct.nodup within⟩
      exact stock.taken key (within key inside)

theorem run_stock {origin : Store} {loaded : Keeper σ} {keys : KeyTable}
    (stock : Stock origin loaded keys fun _ => False) (operations : List Operation)
    (fresh : FreshIds origin (loaded.run operations).trail) :
    ∃ later, Stock origin (loaded.run operations) later (HalfDone loaded operations) ∧
      (.reload ∉ operations → later.drop 2 = keys.drop 2) ∧ (InOrder keys → InOrder later) := by
  induction operations using List.reverseRecOn with
  | nil => exact ⟨keys, stock.mono fun _ _ => False.elim, fun _ => rfl, id⟩
  | append_singleton operations operation ih =>
      obtain ⟨events, trail⟩ := trail_operate (loaded.run operations) operation
      rw [← run_concat] at trail
      obtain ⟨middle, between, kept, inOrder⟩ := ih (FreshIds.of_append (trail ▸ fresh))
      obtain ⟨later, after, keptStill, inOrderStill⟩ := operate_stock between operation fresh
      refine ⟨later, after, fun noReload => ?_, inOrderStill ∘ inOrder⟩
      rw [List.mem_append, List.mem_singleton, not_or] at noReload
      rw [keptStill (Ne.symm noReload.2), kept noReload.1]

/-! ## Agreement -/

section Slots

variable {origin : Store} {keeper : Keeper σ} {keys : KeyTable} {lost : Key → Prop}

theorem Stock.mem_iff (stock : Stock origin keeper keys lost) {key : Key} :
    key ∈ keys ↔ keeper.ring.Slotted key ∨ key ∈ keys.drop 2 := by
  rw [KeyRing.Slotted, stock.current, stock.previous]
  match keys with
  | [] => simp
  | [_] => simp [eq_comm]
  | _ :: _ :: _ => simp [eq_comm, or_assoc]

theorem Stock.spare_iff (stock : Stock origin keeper keys lost) {key : Key} :
    keeper.Spare key ↔ key ∈ keys.drop 2 := by
  constructor
  · rintro ⟨there, outside⟩
    exact (stock.mem_iff.1 (stock.mem_of_held there).1).resolve_left outside
  · intro inside
    refine ⟨stock.held_drop inside, ?_⟩
    obtain ⟨place, there⟩ := List.mem_iff_getElem?.1 inside
    rw [List.getElem?_drop] at there
    rw [KeyRing.Slotted, stock.current, stock.previous]
    rintro (first | second)
    · exact absurd (stock.distinct.place_eq there first rfl) (by omega)
    · exact absurd (stock.distinct.place_eq there second rfl) (by omega)

end Slots

/-- The ring and its store after some operations on a ring that was loaded, and what they do next. -/
structure Consistent (loaded : Keeper σ) (operations : List Operation) (keeper : Keeper σ) : Prop where
  signing : ∀ key, keeper.ring.signing.current = some key →
    keeper.ring.signing.all.find? key.id = some key
  lasting : ∀ before rest, operations = before ++ rest → ∀ id key,
    (loaded.run before).ring.signing.all.find? id = some key →
      keeper.ring.signing.all.find? id = some key ∧ held keeper.store .signing id = some key
  current : ∀ key, keeper.ring.encryption.current = some key →
    held keeper.store .encryption key.id = some key
  within : ∀ id key, held keeper.store .encryption id = some key →
    key.id = id ∧ (keeper.ring.Slotted key ∨ loaded.Spare key)
  spare : ∀ key, loaded.Spare key → held keeper.store .encryption key.id = some key
  previous : ∀ key, keeper.ring.encryption.previous = some key →
    held keeper.store .encryption key.id = some key ∨
      held keeper.store .encryption key.id = none ∧ HalfDone loaded operations key
  rotated : ∀ before operation, operations = before ++ [operation] →
    encryptionMints (loaded.run before).trail < encryptionMints keeper.trail →
      ∀ key, held keeper.store .encryption key.id = some key ↔
        keeper.ring.Slotted key ∨ loaded.Spare key
  answered : ∀ request key after, perform (Request.ask request) keeper = (.ok key, after) →
    key.isValid request.now = true ∧ after.ring.current? request.keyClass = some key
  refused : ∀ request fault after, perform (Request.ask request) keeper = (.error fault, after) →
    after.ring = keeper.ring

theorem coherent_opened {store : σ} (sound : LawfulKeyStore.Sound store) : (opened store).Coherent :=
  coherent_reload sound

theorem stock_opened {store : Unreliable Store} (sound : LawfulKeyStore.Sound store) :
    Stock store.store (opened store) (sortByExpiry (table store .encryption)) fun _ => False := by
  refine stock_reload sound fun key inside => .inr ⟨.encryption, ?_⟩
  have found := (LawfulKeyStore.readable sound .encryption).2.find?_of_mem inside
  rw [show held store.store .encryption key.id = some key from found]
  exact Option.some_ne_none key

/-- A ring that is loaded from a store and then asked for keys agrees with its store throughout,
whichever writes to the store fail, if no two keys are minted under one identifier. -/
theorem run_consistent {store : Store} (filled : Filled store)
    (breaks : List (Option (Break × StoreError))) {operations : List Operation}
    (noReload : .reload ∉ operations) {loaded : Keeper (Unreliable Store)}
    (isLoaded : loaded = opened ⟨store, breaks⟩)
    (fresh : FreshIds store (loaded.run operations).trail) :
    Consistent loaded operations (loaded.run operations) := by
  have sound : LawfulKeyStore.Sound (Unreliable.mk store breaks) := filled.sound
  have coherent : loaded.Coherent := isLoaded ▸ coherent_opened sound
  have start : Stock store loaded _ _ := isLoaded ▸ stock_opened sound
  have same (id : Uuid) : held loaded.store .signing id = held store .signing id := by
    rw [isLoaded, store_opened]
    rfl
  obtain ⟨after, -⟩ := run_coherent_extends coherent operations
  obtain ⟨keys, stock, kept, -⟩ := run_stock start operations fresh
  have behind (key : Key) : loaded.Spare key ↔ key ∈ keys.drop 2 := by
    rw [kept noReload, start.spare_iff]
  have within (id : Uuid) (key : Key) (there : held (loaded.run operations).store .encryption id =
      some key) : key.id = id ∧ ((loaded.run operations).ring.Slotted key ∨ loaded.Spare key) := by
    obtain ⟨inside, isId⟩ := stock.mem_of_held there
    rw [behind]
    exact ⟨isId, stock.mem_iff.1 inside⟩
  have current (key : Key) (isCurrent : (loaded.run operations).ring.encryption.current = some key) :
      held (loaded.run operations).store .encryption key.id = some key :=
    stock.held_of_ne (stock.current.symm.trans isCurrent) Nat.zero_ne_one
  have spare (key : Key) (isSpare : loaded.Spare key) :
      held (loaded.run operations).store .encryption key.id = some key :=
    stock.held_drop ((behind key).1 isSpare)
  have previous (key : Key) (isPrevious : (loaded.run operations).ring.encryption.previous =
      some key) : held (loaded.run operations).store .encryption key.id = some key ∨
        held (loaded.run operations).store .encryption key.id = none ∧
          HalfDone loaded operations key :=
    stock.held_previous (stock.previous.symm.trans isPrevious)
  exact
    { signing := after.current
      lasting := by
        rintro before rest rfl id key known
        obtain ⟨between, first⟩ := run_coherent_extends coherent before
        obtain ⟨-, second⟩ := run_coherent_extends between rest
        rw [← run_append] at second
        have knownStill := known_of_fresh coherent same first second fresh known
        exact ⟨knownStill, (after.agree id).symm.trans knownStill⟩
      current
      within
      spare
      previous
      rotated := by
        rintro before operation rfl minted key
        refine ⟨fun there => (within key.id key there).2, ?_⟩
        -- A rotation that is done leaves nothing half done, so the previous key is there.
        rintro ((isCurrent | isPrevious) | isSpare)
        · exact current key isCurrent
        · rcases previous key isPrevious with there | ⟨-, halfDone⟩
          · exact there
          · exact absurd minted halfDone.not_minted
        · exact spare key isSpare
      answered := fun _ _ _ => Request.current_of_ask
      refused := fun _ _ _ => Request.ring_of_ask_error }

/-! ## A sample -/

def shelved (keys : List Key) : Store :=
  keys.foldl
    (fun store key => (perform (save .encryption key (sampleDraw 0).nonce) store).2) (.memory .empty)

theorem filled_shelved (keys : List Key) : Filled (shelved keys) := by
  induction keys using List.reverseRecOn with
  | nil => exact .memory false false
  | append_singleton keys key ih =>
      rw [shelved, List.foldl_append]
      exact .saved ih .encryption key _

def sampleShelf : Store := shelved [sampleKey 7 0, sampleKey 8 1, sampleKey 9 2]

theorem filled_sampleShelf : Filled sampleShelf := filled_shelved _

def sampleLoaded : Keeper (Unreliable Store) :=
  opened ⟨sampleShelf, [none, none, some (.unopened, .backend .savesDisabled)]⟩

def tornRotation : List Operation :=
  [.ask ⟨.signing, sampleDay 1000, sampleDraw 2⟩, .ask ⟨.encryption, sampleDay 1000, sampleDraw 1⟩]

def mendedRotation : List Operation :=
  tornRotation ++ [.ask ⟨.encryption, sampleDay 1000, sampleDraw 3⟩]

theorem fresh_mendedRotation :
    FreshIds sampleShelf (sampleLoaded.run mendedRotation).trail := by decide

theorem torn_rotation_is_mended :
    HalfDone sampleLoaded tornRotation (sampleKey 8 1) ∧
      held (sampleLoaded.run mendedRotation).store .encryption (sampleDraw 7).id =
        some (sampleKey 7 0) ∧
      ∀ key, held (sampleLoaded.run mendedRotation).store .encryption key.id = some key ↔
        (sampleLoaded.run mendedRotation).ring.Slotted key ∨ sampleLoaded.Spare key := by
  obtain ⟨events, trail⟩ := trail_run (sampleLoaded.run tornRotation)
    [.ask ⟨.encryption, sampleDay 1000, sampleDraw 3⟩]
  rw [← run_append] at trail
  have torn : Consistent sampleLoaded tornRotation (sampleLoaded.run tornRotation) :=
    run_consistent filled_sampleShelf _ (by simp [tornRotation]) rfl
      (FreshIds.of_append (trail ▸ fresh_mendedRotation))
  have mended : Consistent sampleLoaded mendedRotation (sampleLoaded.run mendedRotation) :=
    run_consistent filled_sampleShelf _ (by simp [mendedRotation, tornRotation]) rfl
      fresh_mendedRotation
  have isSpare : sampleLoaded.Spare (sampleKey 7 0) := by
    refine ⟨by decide, ?_⟩
    rintro (isCurrent | isPrevious)
    · exact absurd isCurrent (by decide)
    · exact absurd isPrevious (by decide)
  have lost : held (sampleLoaded.run tornRotation).store .encryption (sampleKey 8 1).id = none := by
    decide
  refine ⟨?_, mended.spare _ isSpare, mended.rotated tornRotation _ rfl (by decide)⟩
  rcases torn.previous (sampleKey 8 1) (by decide) with there | ⟨-, halfDone⟩
  · rw [lost] at there
    cases there
  · exact halfDone

end Keeper

end Bearer
