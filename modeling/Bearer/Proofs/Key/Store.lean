import Bearer.Key.Store.Memory
import Bearer.Proofs.Key.Table
import Bearer.Proofs.Outcome

namespace Bearer

namespace KeyStore

variable {σ : Type} [KeyStore σ]

def table (store : σ) (keyClass : KeyClass) : KeyTable :=
  match keys keyClass store with
  | .ok table => table
  | .error _ => []

def held (store : σ) (keyClass : KeyClass) (id : Uuid) : Option Key :=
  (table store keyClass).find? id

theorem table_of_keys {store : σ} {keyClass : KeyClass} {found : KeyTable}
    (read : keys keyClass store = .ok found) : table store keyClass = found := by
  rw [table, read]

end KeyStore

open KeyStore

/-- A write that succeeds changes what is held in this way, and one that fails changes nothing. -/
structure LawfulWrite {σ : Type} [KeyStore σ] (Sound : σ → Prop) (action : StoreM σ Unit)
    (effect : KeyClass → Uuid → Option Key → Option Key) : Prop where
  done {store after : σ} (sound : Sound store) (done : perform action store = (.ok (), after)) :
    Sound after ∧
      ∀ keyClass id, held after keyClass id = effect keyClass id (held store keyClass id)
  failed {store after : σ} {fault : StoreError} (sound : Sound store)
    (failed : perform action store = (.error fault, after)) :
    Sound after ∧ ∀ keyClass id, held after keyClass id = held store keyClass id

class LawfulKeyStore (σ : Type) [KeyStore σ] where
  Sound : σ → Prop
  readable {store : σ} (sound : Sound store) (keyClass : KeyClass) :
    keys keyClass store = .ok (table store keyClass) ∧ (table store keyClass).Distinct
  saves (keyClass : KeyClass) (key : Key) (nonce : Drawn Nonce) :
    LawfulWrite Sound (save keyClass key nonce) fun other id before =>
      if other = keyClass ∧ id = key.id then some key else before
  removes (gone : Uuid) :
    LawfulWrite Sound (removeEncryptionKey gone) fun other id before =>
      if other = .encryption ∧ id = gone then none else before

namespace LawfulKeyStore

variable {σ : Type} [KeyStore σ] [LawfulKeyStore σ] {store after : σ} {keyClass : KeyClass} {key : Key}
  {nonce : Drawn Nonce} {gone : Uuid} {fault : StoreError}

theorem saved (sound : Sound store)
    (done : perform (save keyClass key nonce) store = (.ok (), after)) :
    Sound after ∧ ∀ other id, held after other id =
      if other = keyClass ∧ id = key.id then some key else held store other id :=
  (saves keyClass key nonce).done sound done

theorem unsaved (sound : Sound store)
    (failed : perform (save keyClass key nonce) store = (.error fault, after)) :
    Sound after ∧ ∀ other id, held after other id = held store other id :=
  (saves keyClass key nonce).failed sound failed

theorem removed (sound : Sound store)
    (done : perform (removeEncryptionKey gone) store = (.ok (), after)) :
    Sound after ∧ ∀ other id, held after other id =
      if other = .encryption ∧ id = gone then none else held store other id :=
  (removes gone).done sound done

theorem unremoved (sound : Sound store)
    (failed : perform (removeEncryptionKey gone) store = (.error fault, after)) :
    Sound after ∧ ∀ other id, held after other id = held store other id :=
  (removes gone).failed sound failed

end LawfulKeyStore

/-! ## The store in memory -/

namespace MemoryStore

theorem perform_checked {check : MemoryStore → Except StoreError Unit}
    {change : MemoryStore → MemoryStore} {store : MemoryStore} (passes : check store = .ok ()) :
    perform (do check (← get); modify change : StoreM MemoryStore Unit) store =
      (.ok (), change store) := by
  rw [perform_get_bind, passes, perform_ok_bind, perform_modify]

theorem checked_cases {check : MemoryStore → Except StoreError Unit}
    {change : MemoryStore → MemoryStore} {store after : MemoryStore}
    {outcome : Except StoreError Unit}
    (done : perform (do check (← get); modify change : StoreM MemoryStore Unit) store =
      (outcome, after)) :
    outcome = .ok () ∧ after = change store ∨ (∃ fault, outcome = .error fault) ∧ after = store := by
  cases checked : check store with
  | ok _ =>
      rw [perform_checked checked] at done
      obtain ⟨rfl, rfl⟩ := Prod.mk.inj done
      exact .inl ⟨rfl, rfl⟩
  | error fault =>
      rw [perform_get_bind, checked, perform_error_bind] at done
      obtain ⟨rfl, rfl⟩ := Prod.mk.inj done
      exact .inr ⟨⟨fault, rfl⟩, rfl⟩

theorem held_eq (store : MemoryStore) (keyClass : KeyClass) (id : Uuid) :
    held store keyClass id = (store.table keyClass).find? id := rfl

theorem held_insert (store : MemoryStore) (keyClass other : KeyClass) (key : Key) (id : Uuid) :
    held (store.insert keyClass key) other id =
      if other = keyClass ∧ id = key.id then some key else held store other id := by
  have same (table : KeyTable) := table.find?_insert key id
  cases keyClass <;> cases other <;> simp [held_eq, insert, table, same]

theorem held_erase (store : MemoryStore) (other : KeyClass) (gone id : Uuid) :
    held { store with encryption := store.encryption.erase gone } other id =
      if other = .encryption ∧ id = gone then none else held store other id := by
  cases other with
  | signing => simp [held_eq, table]
  | encryption => simp [held_eq, table, KeyTable.find?_erase]

def Sound (store : MemoryStore) : Prop := store.signing.Distinct ∧ store.encryption.Distinct

theorem Sound.insert {store : MemoryStore} (sound : store.Sound) (keyClass : KeyClass) (key : Key) :
    (store.insert keyClass key).Sound := by
  cases keyClass with
  | signing => exact ⟨sound.1.insert key, sound.2⟩
  | encryption => exact ⟨sound.1, sound.2.insert key⟩

theorem lawful_checked {check : MemoryStore → Except StoreError Unit}
    {change : MemoryStore → MemoryStore} {effect : KeyClass → Uuid → Option Key → Option Key}
    (keeps : ∀ {store : MemoryStore}, store.Sound → (change store).Sound)
    (holds : ∀ (store : MemoryStore) (keyClass : KeyClass) (id : Uuid),
      held (change store) keyClass id = effect keyClass id (held store keyClass id)) :
    LawfulWrite Sound (do check (← get); modify change) effect where
  done {store after} sound done := by
    obtain ⟨-, rfl⟩ | ⟨⟨_, refused⟩, -⟩ := checked_cases done
    · exact ⟨keeps sound, holds store⟩
    · cases refused
  failed sound failed := by
    obtain ⟨done, -⟩ | ⟨-, rfl⟩ := checked_cases failed
    · cases done
    · exact ⟨sound, fun _ _ => rfl⟩

instance : LawfulKeyStore MemoryStore where
  Sound := Sound
  readable sound keyClass := by
    refine ⟨rfl, ?_⟩
    cases keyClass with
    | signing => exact sound.1
    | encryption => exact sound.2
  saves keyClass key _ := lawful_checked (·.insert keyClass key) fun store other id =>
    held_insert store keyClass other key id
  removes gone := lawful_checked (fun sound => ⟨sound.1, sound.2.erase gone⟩) fun store other id =>
    held_erase store other gone id

end MemoryStore

end Bearer
