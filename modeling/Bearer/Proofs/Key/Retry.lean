import Bearer.Proofs.Key.Section
import Bearer.Proofs.Key.Store.Unreliable
/-!
# Failed requests and retries

* `Harmless`: what a request leaves that fails. A memory store loses at most the key in the previous
  slot, and that only if the request was for an encryption key.
* `Worn`: what any number of failed requests leave. It is no more than one of them leaves.
* `retry_converges`: so that the next mint ends as if they had not been made. What the mint of a signing
  key does not make good is `signing_mint_restores_nothing`.
-/

namespace Bearer

open KeyStore

/-! ## A memory store whose writes break off -/

theorem KeyTable.erase_erase (table : KeyTable) (id : Uuid) :
    (table.erase id).erase id = table.erase id := by
  simp [KeyTable.erase, List.filter_filter]

namespace MemoryStore

def without (store : MemoryStore) (id : Uuid) : MemoryStore :=
  { store with encryption := store.encryption.erase id }

def evict (store : MemoryStore) : Option Key → MemoryStore
  | none => store
  | some previous => store.without previous.id

theorem evict_evict (store : MemoryStore) (previous : Option Key) :
    (store.evict previous).evict previous = store.evict previous := by
  cases previous with
  | none => rfl
  | some previous => simp only [evict, without, KeyTable.erase_erase]

theorem failWrites_evict (store : MemoryStore) (previous : Option Key) :
    (store.evict previous).failWrites = store.failWrites := by
  cases previous <;> rfl

theorem failSaves_evict (store : MemoryStore) (previous : Option Key) :
    (store.evict previous).failSaves = store.failSaves := by
  cases previous <;> rfl

theorem insert_evict_signing (store : MemoryStore) (previous : Option Key) (key : Key) :
    (store.evict previous).insert .signing key = (store.insert .signing key).evict previous := by
  cases previous <;> rfl

end MemoryStore

namespace Unreliable

open MemoryStore

def refusal? (unreliable : Unreliable MemoryStore) (check : MemoryStore → Except StoreError Unit) :
    Option StoreError :=
  match unreliable.breaks with
  | some (_, fault) :: _ => some fault
  | _ =>
      match check unreliable.store with
      | .ok () => none
      | .error fault => some fault

theorem perform_write {check : MemoryStore → Except StoreError Unit}
    {change : MemoryStore → MemoryStore} (unreliable : Unreliable MemoryStore) :
    perform (write (do check (← get); modify change) fun _ store => store) unreliable =
      match unreliable.refusal? check with
      | some fault => (.error fault, ⟨unreliable.store, unreliable.breaks.tail⟩)
      | none => (.ok (), ⟨change unreliable.store, unreliable.breaks.tail⟩) := by
  change write (do check (← get); modify change) (fun _ store => store) unreliable = _
  unfold write refusal?
  cases checked : check unreliable.store with
  | ok _ =>
      rw [perform_checked checked]
      split <;> simp_all
  | error fault =>
      rw [perform_get_bind, checked, perform_error_bind]
      split <;> simp_all

theorem perform_save (keyClass : KeyClass) (key : Key) (nonce : Drawn Nonce)
    (unreliable : Unreliable MemoryStore) :
    perform (KeyStore.save keyClass key nonce) unreliable =
      match unreliable.refusal? checkSavable with
      | some fault => (.error fault, ⟨unreliable.store, unreliable.breaks.tail⟩)
      | none => (.ok (), ⟨unreliable.store.insert keyClass key, unreliable.breaks.tail⟩) :=
  perform_write unreliable

theorem perform_remove (id : Uuid) (unreliable : Unreliable MemoryStore) :
    perform (KeyStore.removeEncryptionKey id) unreliable =
      match unreliable.refusal? checkWritable with
      | some fault => (.error fault, ⟨unreliable.store, unreliable.breaks.tail⟩)
      | none => (.ok (), ⟨unreliable.store.without id, unreliable.breaks.tail⟩) :=
  perform_write unreliable

section Writes

variable {unreliable after : Unreliable MemoryStore} {keyClass : KeyClass} {key : Key}
  {nonce : Drawn Nonce} {id : Uuid} {fault : StoreError}

theorem store_of_unsaved
    (failed : perform (KeyStore.save keyClass key nonce) unreliable = (.error fault, after)) :
    after.store = unreliable.store := by
  rw [perform_save] at failed
  split at failed
  · obtain ⟨-, rfl⟩ := Prod.mk.inj failed
    rfl
  · cases failed

theorem store_of_unremoved
    (failed : perform (KeyStore.removeEncryptionKey id) unreliable = (.error fault, after)) :
    after.store = unreliable.store := by
  rw [perform_remove] at failed
  split at failed
  · obtain ⟨-, rfl⟩ := Prod.mk.inj failed
    rfl
  · cases failed

theorem store_of_removed
    (done : perform (KeyStore.removeEncryptionKey id) unreliable = (.ok (), after)) :
    after.store = unreliable.store.without id := by
  rw [perform_remove] at done
  split at done
  · cases done
  · obtain ⟨-, rfl⟩ := Prod.mk.inj done
    rfl

end Writes

structure Alike (left right : Unreliable MemoryStore) : Prop where
  breaks : right.breaks = left.breaks
  failWrites : right.store.failWrites = left.store.failWrites
  failSaves : right.store.failSaves = left.store.failSaves

theorem Alike.refl (unreliable : Unreliable MemoryStore) : Alike unreliable unreliable :=
  ⟨rfl, rfl, rfl⟩

section Alike

variable {left right after : Unreliable MemoryStore}

theorem Alike.refusal?_checkWritable (alike : Alike left right) :
    right.refusal? checkWritable = left.refusal? checkWritable := by
  simp only [refusal?, checkWritable, alike.breaks, alike.failWrites]

theorem Alike.refusal?_checkSavable (alike : Alike left right) :
    right.refusal? checkSavable = left.refusal? checkSavable := by
  simp only [refusal?, checkSavable, checkWritable, alike.breaks, alike.failWrites, alike.failSaves]

theorem Alike.removed (alike : Alike left right) {id : Uuid}
    (done : perform (KeyStore.removeEncryptionKey id) left = (.ok (), after)) :
    ∃ other, perform (KeyStore.removeEncryptionKey id) right = (.ok (), other) ∧
      Alike after other ∧ other.store = right.store.without id := by
  rw [perform_remove] at done ⊢
  rw [alike.refusal?_checkWritable]
  split at done
  · cases done
  · obtain ⟨-, rfl⟩ := Prod.mk.inj done
    exact ⟨_, rfl, ⟨congrArg List.tail alike.breaks, alike.failWrites, alike.failSaves⟩, rfl⟩

theorem Alike.saved (alike : Alike left right) {keyClass : KeyClass} {key : Key} {nonce : Drawn Nonce}
    (done : perform (KeyStore.save keyClass key nonce) left = (.ok (), after)) :
    ∃ other, perform (KeyStore.save keyClass key nonce) right = (.ok (), other) ∧
      after.store = left.store.insert keyClass key ∧
      other.store = right.store.insert keyClass key := by
  rw [perform_save] at done ⊢
  rw [alike.refusal?_checkSavable]
  split at done
  · cases done
  · obtain ⟨-, rfl⟩ := Prod.mk.inj done
    exact ⟨_, rfl, rfl, rfl⟩

end Alike

theorem Alike.cleared {left right cleared : Unreliable MemoryStore} (alike : Alike left right)
    {evicted : Option Key} (removed : Keeper.Cleared left evicted cleared) :
    cleared.store = left.store.evict evicted ∧
      ∃ other, Keeper.Cleared right evicted other ∧ Alike cleared other ∧
        other.store = right.store.evict evicted := by
  cases removed with
  | nothing => exact ⟨rfl, right, .nothing, alike, rfl⟩
  | removed done =>
      obtain ⟨other, gone, stillAlike, lost⟩ := alike.removed done
      exact ⟨store_of_removed done, other, .removed gone, stillAlike, lost⟩

end Unreliable

/-! ## Failed requests -/

abbrev MemoryKeeper := Keeper (Unreliable MemoryStore)

namespace Keeper

structure Harmless (keeper after : MemoryKeeper) (keyClass : KeyClass) (fault : Error) : Prop where
  ring : after.ring = keeper.ring
  store : after.store.store = keeper.store.store ∨
    keyClass = .encryption ∧
      after.store.store = keeper.store.store.evict keeper.ring.encryption.previous
  told : fault = .calendarEnds ∧ after.trail = keeper.trail ∨
    ((∃ task source, fault = .store task source) ∨ ∃ reason, fault = .generation reason) ∧
      after.trail = keeper.trail ++ [.rotationFailed keyClass fault.message]

theorem harmless_of_ask {request : Request} {keeper after : MemoryKeeper} {fault : Error}
    (failed : perform request.ask keeper = (.error fault, after)) :
    Harmless keeper after request.keyClass fault := by
  rcases Request.ask_step failed with ⟨keyClass, step⟩ | ⟨keyClass, step⟩
  · rw [keyClass]
    cases step with
    | undrawn refused => exact ⟨rfl, .inl rfl, .inr ⟨.inr ⟨_, rfl⟩, rfl⟩⟩
    | calendarEnds => exact ⟨rfl, .inl rfl, .inl ⟨rfl, rfl⟩⟩
    | unsaved minted unsaved =>
        exact ⟨rfl, .inl (Unreliable.store_of_unsaved unsaved), .inr ⟨.inl ⟨_, _, rfl⟩, rfl⟩⟩
  · rw [keyClass]
    cases step with
    | undrawn refused => exact ⟨rfl, .inl rfl, .inr ⟨.inr ⟨_, rfl⟩, rfl⟩⟩
    | calendarEnds => exact ⟨rfl, .inl rfl, .inl ⟨rfl, rfl⟩⟩
    | unremoved minted held unremoved =>
        have kept := Unreliable.store_of_unremoved unremoved
        exact ⟨rfl, .inl kept, .inr ⟨.inl ⟨_, _, rfl⟩, rfl⟩⟩
    | unsaved minted removed unsaved =>
        obtain ⟨cleared, -⟩ := (Unreliable.Alike.refl keeper.store).cleared removed
        have kept := Unreliable.store_of_unsaved unsaved
        exact ⟨rfl, .inr ⟨rfl, kept.trans cleared⟩, .inr ⟨.inl ⟨_, _, rfl⟩, rfl⟩⟩

end Keeper

/-! ## Attempts -/

structure Attempt where
  request : Request
  breaks : List (Option (Break × StoreError))

namespace Keeper

def facing (keeper : MemoryKeeper) (breaks : List (Option (Break × StoreError))) : MemoryKeeper :=
  { keeper with store := ⟨keeper.store.store, breaks⟩ }

def attempt (keeper : MemoryKeeper) (attempt : Attempt) : Except Error Key × MemoryKeeper :=
  perform attempt.request.ask (keeper.facing attempt.breaks)

theorem harmless_of_attempt {keeper after : MemoryKeeper} {attempt : Attempt} {fault : Error}
    (failed : keeper.attempt attempt = (.error fault, after)) :
    Harmless keeper after attempt.request.keyClass fault := by
  obtain ⟨ring, store, told⟩ := harmless_of_ask failed
  exact ⟨ring, store, told⟩

inductive Fails : MemoryKeeper → List Attempt → MemoryKeeper → Prop where
  | nil (keeper : MemoryKeeper) : Fails keeper [] keeper
  | cons {keeper between after : MemoryKeeper} {attempt : Attempt} {attempts : List Attempt}
      {fault : Error} (failed : keeper.attempt attempt = (.error fault, between))
      (more : Fails between attempts after) : Fails keeper (attempt :: attempts) after

structure Worn (keeper after : MemoryKeeper) (attempts : List Attempt) : Prop where
  ring : after.ring = keeper.ring
  store : after.store.store = keeper.store.store ∨
    (∃ attempt ∈ attempts, attempt.request.keyClass = .encryption) ∧
      after.store.store = keeper.store.store.evict keeper.ring.encryption.previous

theorem Harmless.worn {keeper between after : MemoryKeeper} {attempt : Attempt}
    {attempts : List Attempt} {fault : Error}
    (harmless : Harmless keeper between attempt.request.keyClass fault)
    (more : Worn between after attempts) : Worn keeper after (attempt :: attempts) where
  ring := more.ring.trans harmless.ring
  store := by
    have later := more.store
    rw [harmless.ring] at later
    rcases harmless.store with same | ⟨isEncryption, lost⟩
    · rw [same] at later
      exact later.imp_right fun ⟨⟨other, inside, isEncryption⟩, lost⟩ =>
        ⟨⟨other, List.mem_cons_of_mem _ inside, isEncryption⟩, lost⟩
    · refine .inr ⟨⟨attempt, List.mem_cons_self, isEncryption⟩, ?_⟩
      rcases later with same | ⟨-, again⟩
      · exact same.trans lost
      · rw [again, lost, MemoryStore.evict_evict]

theorem Fails.worn {keeper after : MemoryKeeper} {attempts : List Attempt}
    (fails : Fails keeper attempts after) : Worn keeper after attempts := by
  induction fails with
  | nil keeper => exact ⟨rfl, .inl rfl⟩
  | cons failed _ ih => exact (harmless_of_attempt failed).worn ih

/-! ## Retries -/

theorem Worn.alike {keeper worn : MemoryKeeper} {attempts : List Attempt}
    (spared : Worn keeper worn attempts) (breaks : List (Option (Break × StoreError))) :
    (worn.facing breaks).store.Alike (keeper.facing breaks).store := by
  rcases spared.store with same | ⟨-, lost⟩
  · exact ⟨rfl, congrArg _ same.symm, congrArg _ same.symm⟩
  · refine ⟨rfl, ?_, ?_⟩
    · change _ = worn.store.store.failWrites
      rw [lost, MemoryStore.failWrites_evict]
      rfl
    · change _ = worn.store.store.failSaves
      rw [lost, MemoryStore.failSaves_evict]
      rfl

/-- The store after a mint, next to the one that the mint leaves if no attempt has failed before it. It
is the same, unless a signing key has been minted after attempts at an encryption key. -/
def Restored (attempts : List Attempt) (keyClass : KeyClass) (previous : Option Key)
    (after direct : MemoryStore) : Prop :=
  after = direct ∨ keyClass = .signing ∧
    (∃ attempt ∈ attempts, attempt.request.keyClass = .encryption) ∧ after = direct.evict previous

theorem Worn.insert {keeper worn : MemoryKeeper} {attempts : List Attempt}
    (spared : Worn keeper worn attempts) (key : Key) (keyClass : KeyClass) :
    Restored attempts keyClass keeper.ring.encryption.previous
      ((worn.store.store.evict (keeper.ring.evicted? keyClass)).insert keyClass key)
      ((keeper.store.store.evict (keeper.ring.evicted? keyClass)).insert keyClass key) := by
  rcases spared.store with same | ⟨isEncryption, lost⟩
  · rw [same]
    exact .inl rfl
  · rw [lost]
    cases keyClass with
    | signing =>
        have swapped := MemoryStore.insert_evict_signing keeper.store.store
          keeper.ring.encryption.previous key
        exact .inr ⟨rfl, isEncryption, swapped⟩
    | encryption =>
        rw [KeyRing.evicted?, MemoryStore.evict_evict]
        exact .inl rfl

structure Converges (keeper worn after direct : MemoryKeeper) (attempts : List Attempt)
    (keyClass : KeyClass) : Prop where
  ring : after.ring = direct.ring
  trail : ∃ events, after.trail = worn.trail ++ events ∧ direct.trail = keeper.trail ++ events
  store : Restored attempts keyClass keeper.ring.encryption.previous after.store.store
    direct.store.store

theorem Worn.mint {keeper worn after : MemoryKeeper} {attempts : List Attempt}
    (spared : Worn keeper worn attempts) {last : Attempt}
    (absent : last.request.valid? keeper.ring = none) {key : Key}
    (minted : worn.attempt last = (.ok key, after)) :
    ∃ direct, keeper.attempt last = (.ok key, direct) ∧
      Converges keeper worn after direct attempts last.request.keyClass := by
  have absentStill : last.request.valid? (worn.facing last.breaks).ring = none := by
    change last.request.valid? worn.ring = none
    rw [spared.ring, absent]
  have absent : last.request.valid? (keeper.facing last.breaks).ring = none := absent
  rw [attempt, Request.ask_of_invalid absentStill] at minted
  have rotated := Request.rotated_of_rotate absentStill minted
  obtain ⟨cleared, removed, saved⟩ := rotated.store
  rw [show (worn.facing last.breaks).ring = keeper.ring from spared.ring] at removed
  obtain ⟨isCleared, other, removedToo, alike, isOther⟩ := (spared.alike last.breaks).cleared removed
  obtain ⟨store, savedToo, isAfter, isStore⟩ := alike.saved saved
  obtain ⟨direct, done, rotatedToo⟩ :=
    Request.rotate_of_writes absent rotated.minted removedToo savedToo
  have isDirect : direct.store = store := by
    obtain ⟨again, removedAgain, savedAgain⟩ := rotatedToo.store
    obtain rfl := removedToo.unique removedAgain
    exact congrArg Prod.snd (savedAgain.symm.trans savedToo)
  have trail := rotated.trail
  rw [show (worn.facing last.breaks).ring = keeper.ring from spared.ring] at trail
  refine ⟨direct, ?_, ⟨?_, ⟨_, trail, rotatedToo.trail⟩, ?_⟩⟩
  · rw [attempt, Request.ask_of_invalid absent, done]
  · rw [rotated.ring, rotatedToo.ring]
    exact congrArg (KeyRing.install · key _) spared.ring
  · rw [isAfter, isCleared, isDirect, isStore, isOther]
    exact spared.insert key last.request.keyClass

/-- A request that fails leaves the ring as it is, and tells so in one event of the trail, unless it is
the calendar that ends. It leaves the store as it is as well, but that a request for an encryption key
may have removed the key in the previous slot. However many requests fail, at whatever times and
whichever writes break off, the mint that comes after them ends as if they had not been made: in the
same ring, with the same keys in the store. Only an encryption key that they have removed is not put
back by the mint of a signing key. -/
theorem retry_converges (keeper : MemoryKeeper) :
    (∀ attempt fault after, keeper.attempt attempt = (.error fault, after) →
      Harmless keeper after attempt.request.keyClass fault) ∧
    ∀ attempts worn last key after, Fails keeper attempts worn →
      last.request.valid? keeper.ring = none → worn.attempt last = (.ok key, after) →
      ∃ direct, keeper.attempt last = (.ok key, direct) ∧
        Converges keeper worn after direct attempts last.request.keyClass :=
  ⟨fun _ _ _ failed => harmless_of_attempt failed,
    fun _ _ _ _ _ fails absent minted => fails.worn.mint absent minted⟩

def samplePair : MemoryKeeper :=
  ⟨⟨⟨none, []⟩, some (sampleKey 9 2), some (sampleKey 8 1)⟩,
    ⟨⟨[], [sampleKey 8 1, sampleKey 9 2], false, false⟩, []⟩, []⟩

def tornAttempt : Attempt :=
  ⟨⟨.encryption, sampleDay 1000, sampleDraw 1⟩, [none, some (.unopened, .backend .savesDisabled)]⟩

def refusedAttempt : Attempt :=
  ⟨⟨.encryption, sampleDay 900, sampleDraw 2⟩, [some (.unopened, .backend .writesDisabled)]⟩

theorem third_attempt_converges : ∃ worn key after direct,
    Fails samplePair [tornAttempt, refusedAttempt] worn ∧
      worn.store.store.encryption = [sampleKey 9 2] ∧
      worn.attempt ⟨⟨.encryption, sampleDay 1001, sampleDraw 3⟩, []⟩ = (.ok key, after) ∧
      samplePair.attempt ⟨⟨.encryption, sampleDay 1001, sampleDraw 3⟩, []⟩ = (.ok key, direct) ∧
      after.ring = direct.ring ∧ after.store.store = direct.store.store := by
  have fails : ∃ worn, Fails samplePair [tornAttempt, refusedAttempt] worn ∧
      worn.store.store.encryption = [sampleKey 9 2] ∧
      ∃ key after, worn.attempt ⟨⟨.encryption, sampleDay 1001, sampleDraw 3⟩, []⟩ =
        (.ok key, after) :=
    ⟨_, .cons rfl (.cons rfl (.nil _)), rfl, _, _, rfl⟩
  obtain ⟨worn, fails, lost, key, after, minted⟩ := fails
  obtain ⟨-, retried⟩ := retry_converges samplePair
  obtain ⟨direct, done, converges⟩ := retried _ _ _ _ _ fails rfl minted
  have store := converges.store.resolve_right nofun
  exact ⟨worn, key, after, direct, fails, lost, minted, done, converges.ring, store⟩

theorem signing_mint_restores_nothing : ∃ worn key after direct,
    Fails samplePair [tornAttempt] worn ∧
      worn.attempt ⟨⟨.signing, sampleDay 1001, sampleDraw 3⟩, []⟩ = (.ok key, after) ∧
      samplePair.attempt ⟨⟨.signing, sampleDay 1001, sampleDraw 3⟩, []⟩ = (.ok key, direct) ∧
      after.store.store.encryption = [sampleKey 9 2] ∧
      direct.store.store.encryption = [sampleKey 8 1, sampleKey 9 2] :=
  ⟨_, _, _, _, .cons rfl (.nil _), rfl, rfl, rfl, rfl⟩

end Keeper

end Bearer
