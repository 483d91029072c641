import Bearer.Key.Store.Any
import Bearer.Proofs.Key.Store.Files

namespace Bearer

open KeyStore

/-! ## Stores of either kind -/

namespace Store

theorem act_eq {onMemory : StoreM MemoryStore Unit} {onFiles : StoreM FileStore Unit}
    {store after : Store} {outcome : Except StoreError Unit}
    (done : perform (act onMemory onFiles) store = (outcome, after)) :
    (∃ before inner, store = .memory before ∧ after = .memory inner ∧
      perform onMemory before = (outcome, inner)) ∨
    ∃ before inner, store = .files before ∧ after = .files inner ∧
      perform onFiles before = (outcome, inner) := by
  cases store with
  | memory before =>
      obtain ⟨rfl, rfl⟩ := Prod.mk.inj done
      exact .inl ⟨before, _, rfl, rfl, rfl⟩
  | files before =>
      obtain ⟨rfl, rfl⟩ := Prod.mk.inj done
      exact .inr ⟨before, _, rfl, rfl, rfl⟩

def Sound : Store → Prop
  | .memory inner => LawfulKeyStore.Sound inner
  | .files inner => LawfulKeyStore.Sound inner

theorem lawful_act {onMemory : StoreM MemoryStore Unit} {onFiles : StoreM FileStore Unit}
    {effect : KeyClass → Uuid → Option Key → Option Key}
    (memory : LawfulWrite LawfulKeyStore.Sound onMemory effect)
    (files : LawfulWrite LawfulKeyStore.Sound onFiles effect) :
    LawfulWrite Sound (act onMemory onFiles) effect where
  done sound done := by
    rcases act_eq done with ⟨before, inner, rfl, rfl, inside⟩ | ⟨before, inner, rfl, rfl, inside⟩
    · exact memory.done sound inside
    · exact files.done sound inside
  failed sound failed := by
    rcases act_eq failed with ⟨before, inner, rfl, rfl, inside⟩ | ⟨before, inner, rfl, rfl, inside⟩
    · exact memory.failed sound inside
    · exact files.failed sound inside

instance : LawfulKeyStore Store where
  Sound := Sound
  readable {store} sound keyClass := by
    cases store with
    | memory inner => exact LawfulKeyStore.readable (σ := MemoryStore) sound keyClass
    | files inner => exact LawfulKeyStore.readable (σ := FileStore) sound keyClass
  saves keyClass key nonce :=
    lawful_act (LawfulKeyStore.saves keyClass key nonce) (LawfulKeyStore.saves keyClass key nonce)
  removes gone := lawful_act (LawfulKeyStore.removes gone) (LawfulKeyStore.removes gone)

end Store

/-! ## Saves that break off -/

inductive Break where
  | unopened
  | unfinished (count : Nat)
  | unmoved (closed : Bool)

class BreakableStore (σ : Type) [KeyStore σ] [LawfulKeyStore σ] where
  broken : Break → KeyClass → Key → Drawn Nonce → σ → σ
  harmless {store : σ} (sound : LawfulKeyStore.Sound store) (break' : Break) (keyClass : KeyClass)
    (key : Key) (nonce : Drawn Nonce) :
    LawfulKeyStore.Sound (broken break' keyClass key nonce store) ∧
      ∀ other id, held (broken break' keyClass key nonce store) other id = held store other id

instance : BreakableStore MemoryStore where
  broken _ _ _ _ store := store
  harmless sound _ _ _ _ := ⟨sound, fun _ _ => rfl⟩

namespace FileStore

open FileSystem

def attempt (disk : FileSystem) (step : Step) : FileSystem :=
  match disk.step step with
  | .ok disk => disk
  | .error _ => disk

theorem onlyAt_attempt_write {place : Location} (inner : place ≠ []) (disk : FileSystem)
    (content : Bytes) : OnlyAt place disk (attempt disk (.write place content)) := by
  unfold attempt
  split
  · next done =>
      obtain ⟨mode, rfl⟩ := write_eq_ok done
      exact onlyAt_put inner _ _
  · exact .refl _ _

theorem onlyAt_attempt_setMode {place : Location} (inner : place ≠ []) (disk : FileSystem)
    (mode : Nat) : OnlyAt place disk (attempt disk (.setMode place mode)) := by
  unfold attempt
  split
  · next done =>
      rcases setMode_eq_ok done with rfl | ⟨content, before, -, rfl⟩
      · exact .refl _ _
      · exact onlyAt_put inner _ _
  · exact .refl _ _

def draftedDisk (disk : FileSystem) (place : Location) (record : Bytes) : Break → FileSystem
  | .unopened => disk
  | .unfinished count => attempt disk (.write place (record.take count))
  | .unmoved false => attempt disk (.write place record)
  | .unmoved true => attempt (attempt disk (.write place record)) (.setMode place ownerOnly)

theorem onlyAt_draftedDisk {place : Location} (inner : place ≠ []) (disk : FileSystem)
    (record : Bytes) (break' : Break) : OnlyAt place disk (draftedDisk disk place record break') := by
  cases break' with
  | unopened => exact .refl _ _
  | unfinished count => exact onlyAt_attempt_write inner disk _
  | unmoved closed =>
      cases closed with
      | false => exact onlyAt_attempt_write inner disk record
      | true =>
          have written := onlyAt_attempt_write inner disk record
          exact written.trans (onlyAt_attempt_setMode inner _ _)

def brokenSave (break' : Break) (keyClass : KeyClass) (key : Key) (nonce : Drawn Nonce)
    (store : FileStore) : FileStore :=
  match encode store.masterKey key nonce with
  | .error _ => store
  | .ok content => store.withDisk
      (draftedDisk store.disk (store.draftPlace keyClass key.id) (Utf8.encode content) break')

instance : BreakableStore FileStore where
  broken := brokenSave
  harmless {store} sound break' keyClass key nonce := by
    unfold brokenSave
    split
    · exact ⟨sound, fun _ _ => rfl⟩
    · exact Sound.drafted sound
        (onlyAt_draftedDisk (store.draftPlace_ne_nil keyClass key.id) _ _ break')

end FileStore

instance : BreakableStore Store where
  broken break' keyClass key nonce
    | .memory inner => .memory (BreakableStore.broken break' keyClass key nonce inner)
    | .files inner => .files (BreakableStore.broken break' keyClass key nonce inner)
  harmless {store} sound break' keyClass key nonce := by
    cases store with
    | memory inner =>
        exact BreakableStore.harmless (σ := MemoryStore) sound break' keyClass key nonce
    | files inner => exact BreakableStore.harmless (σ := FileStore) sound break' keyClass key nonce

/-! ## Unreliable stores -/

/-- A store, and how each of its next writes breaks off, with what error. -/
structure Unreliable (σ : Type) where
  store : σ
  breaks : List (Option (Break × StoreError))

namespace Unreliable

variable {σ : Type}

def write (action : StoreM σ Unit) (left : Break → σ → σ) : StoreM (Unreliable σ) Unit :=
  fun unreliable =>
    match unreliable.breaks with
    | some (break', fault) :: later => (.error fault, ⟨left break' unreliable.store, later⟩)
    | later =>
        let (outcome, store) := perform action unreliable.store
        (outcome, ⟨store, later.tail⟩)

theorem write_cases {action : StoreM σ Unit} {left : Break → σ → σ}
    {unreliable after : Unreliable σ} {outcome : Except StoreError Unit}
    (done : perform (write action left) unreliable = (outcome, after)) :
    (∃ break' fault, outcome = .error fault ∧ after.store = left break' unreliable.store) ∨
      perform action unreliable.store = (outcome, after.store) := by
  change write action left unreliable = _ at done
  unfold write at done
  split at done
  · next break' fault later _ =>
      obtain ⟨rfl, rfl⟩ := Prod.mk.inj done
      exact .inl ⟨break', fault, rfl, rfl⟩
  · obtain ⟨rfl, rfl⟩ := Prod.mk.inj done
    exact .inr rfl

variable [KeyStore σ] [LawfulKeyStore σ] [BreakableStore σ]

instance : KeyStore (Unreliable σ) where
  keys keyClass unreliable := KeyStore.keys keyClass unreliable.store
  key keyClass id unreliable := KeyStore.key keyClass id unreliable.store
  save keyClass key nonce :=
    write (KeyStore.save keyClass key nonce) (BreakableStore.broken · keyClass key nonce)
  removeEncryptionKey id := write (KeyStore.removeEncryptionKey id) fun _ store => store

def Sound (unreliable : Unreliable σ) : Prop := LawfulKeyStore.Sound unreliable.store

theorem lawful_write {action : StoreM σ Unit} {left : Break → σ → σ}
    {effect : KeyClass → Uuid → Option Key → Option Key}
    (whole : LawfulWrite LawfulKeyStore.Sound action effect)
    (harmless : ∀ (break' : Break) {store : σ}, LawfulKeyStore.Sound store →
      LawfulKeyStore.Sound (left break' store) ∧
        ∀ keyClass id, held (left break' store) keyClass id = held store keyClass id) :
    LawfulWrite Sound (write action left) effect where
  done sound done := by
    rcases write_cases done with ⟨_, _, ⟨⟩, _⟩ | inside
    exact whole.done sound inside
  failed sound failed := by
    rcases write_cases failed with ⟨break', _, -, isLeft⟩ | inside
    · have spared := harmless break' sound
      rw [← isLeft] at spared
      exact spared
    · exact whole.failed sound inside

instance : LawfulKeyStore (Unreliable σ) where
  Sound := Sound
  readable sound keyClass := LawfulKeyStore.readable (σ := σ) sound keyClass
  saves keyClass key nonce := lawful_write (LawfulKeyStore.saves keyClass key nonce)
    fun break' _ sound => BreakableStore.harmless sound break' keyClass key nonce
  removes gone := lawful_write (LawfulKeyStore.removes gone) fun _ _ sound => ⟨sound, fun _ _ => rfl⟩

end Unreliable

end Bearer
