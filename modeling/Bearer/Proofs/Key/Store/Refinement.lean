import Bearer.Proofs.Key.Store.Files
/-!
# The store in files answers as the store in memory

* `StoreRequest`, `answers`: requests to a store, the opening of it again among them, and what it
  answers to one after the other.
* `Clean`: states of the store in files in which no step can fail.
* `Mirrors`: both stores hold the same keys. Every request is answered alike and keeps it so
  (`serve_mirrors`).
* `answers_as_memory`: from an empty directory on, all requests are answered alike.
-/

namespace Bearer

open KeyStore FileSystem

/-! ## Requests to a store -/

inductive StoreRequest where
  | save (keyClass : KeyClass) (key : Key) (nonce : Nonce)
  | remove (id : Uuid)
  | key (keyClass : KeyClass) (id : Uuid)
  | keys (keyClass : KeyClass)
  | reopen

inductive StoreAnswer where
  | done (outcome : Except StoreError Unit)
  | key (outcome : Except StoreError Key)
  | keys (outcome : Except StoreError KeyTable)

/-- Answers that no client can tell apart: tables are maps, whose order says nothing. -/
inductive StoreAnswer.Same : StoreAnswer → StoreAnswer → Prop
  | done (outcome : Except StoreError Unit) : Same (.done outcome) (.done outcome)
  | key (outcome : Except StoreError Key) : Same (.key outcome) (.key outcome)
  | keys {left right : KeyTable} (perm : left.Perm right) :
      Same (.keys (.ok left)) (.keys (.ok right))

namespace StoreRequest

def Sealable : StoreRequest → Prop
  | .save _ new _ => new.secret.length ≤ Gcm.maxTextLength
  | _ => True

variable {σ : Type} [KeyStore σ]

def serve (reopen : StoreM σ Unit) (store : σ) : StoreRequest → StoreAnswer × σ
  | .save keyClass new nonce =>
      (perform (KeyStore.save keyClass new (.ok nonce)) store).map .done id
  | .remove gone => (perform (KeyStore.removeEncryptionKey gone) store).map .done id
  | .key keyClass id => (.key (KeyStore.key keyClass id store), store)
  | .keys keyClass => (.keys (KeyStore.keys keyClass store), store)
  | .reopen => (perform reopen store).map .done id

def answers (reopen : StoreM σ Unit) (store : σ) : List StoreRequest → List StoreAnswer
  | [] => []
  | request :: requests =>
      (request.serve reopen store).1 :: answers reopen (request.serve reopen store).2 requests

end StoreRequest

def MemoryStore.reopen : StoreM MemoryStore Unit := pure ()

namespace FileStore

def reopen : StoreM FileStore Unit := do
  let store ← get
  match openAt store.disk store.base store.masterKey with
  | (.ok opened, _) => set opened
  | (.error fault, disk) => do
      set { store with disk }
      throw fault

/-! ## Opening -/

theorem plain_name (keyClass : KeyClass) : Plain keyClass.name := by
  cases keyClass <;> exact ⟨by decide, by decide, by decide, by decide⟩

theorem directory_ne_nil (disk : FileSystem) (base : String) (keyClass : KeyClass) :
    FileStore.directory disk base keyClass ≠ [] := by
  simp [FileStore.directory]

theorem directory_congr {disk after : FileSystem} (workDir : after.workDir = disk.workDir)
    (base : String) (keyClass : KeyClass) :
    FileStore.directory after base keyClass = FileStore.directory disk base keyClass := by
  simp only [FileStore.directory, locate, origin, workDir]

def opened (disk : FileSystem) (base : String) : FileSystem :=
  (disk.withDirectory (FileStore.directory disk base .signing)).withDirectory
    (FileStore.directory disk base .encryption)

structure Reachable (disk : FileSystem) (base : String) : Prop where
  way : disk.walk (disk.origin base) (names base) = .ok (disk.locate base)
  found : disk.find (disk.locate base) = .ok .directory
  fits (keyClass : KeyClass) : checkPath (join base keyClass.name) = .ok ()

theorem Reachable.congr {disk after : FileSystem} {base : String} (reachable : Reachable disk base)
    (workDir : after.workDir = disk.workDir)
    (keeps : ∀ place, disk.node? place = some .directory → after.node? place = some .directory) :
    Reachable after base := by
  have origin : after.origin base = disk.origin base := by rw [FileSystem.origin, workDir]; rfl
  have place : after.locate base = disk.locate base := by rw [locate, origin]; rfl
  refine ⟨?_, ?_, reachable.fits⟩
  · rw [origin, place]
    exact walk_mono keeps reachable.way
  · rw [place]
    obtain ⟨way, node⟩ := find_eq_ok_iff.1 reachable.found
    exact find_eq_ok_iff.2 ⟨reach_mono keeps way, keeps _ node⟩

theorem Reachable.withDirectory {disk : FileSystem} {base : String}
    (reachable : Reachable disk base) {place : Location} (inner : place ≠ []) :
    Reachable (disk.withDirectory place) base := by
  refine reachable.congr (workDir_withDirectory disk place) fun other directory => ?_
  rw [node?_withDirectory disk inner]
  split
  · rfl
  · exact directory

theorem Reachable.makeDirectories {disk : FileSystem} {base : String}
    (reachable : Reachable disk base) {keyClass : KeyClass}
    (noFile : ∀ content mode,
      disk.node? (FileStore.directory disk base keyClass) ≠ some (.file content mode)) :
    disk.makeDirectories (join base keyClass.name) =
      (.ok (), disk.withDirectory (FileStore.directory disk base keyClass)) :=
  makeDirectories_join (plain_name keyClass) (reachable.fits keyClass) reachable.way
    (find_eq_ok_iff.1 reachable.found).2 noFile

theorem openAt_eq {disk : FileSystem} {base : String} {masterKey : Bytes}
    (length : masterKey.length = keyLength) (reachable : Reachable disk base)
    (noFile : ∀ keyClass content mode,
      disk.node? (FileStore.directory disk base keyClass) ≠ some (.file content mode)) :
    openAt disk base masterKey =
      (.ok ⟨opened disk base, base, masterKey, length⟩, opened disk base) := by
  have inner := directory_ne_nil disk base .signing
  have same := directory_congr (workDir_withDirectory disk (FileStore.directory disk base .signing))
    base .encryption
  have second := @Reachable.makeDirectories _ _ (reachable.withDirectory inner) .encryption
  rw [same] at second
  have noFile' (content : Bytes) (mode : Nat) :
      (disk.withDirectory (FileStore.directory disk base .signing)).node?
        (FileStore.directory disk base .encryption) ≠ some (.file content mode) := by
    rw [node?_withDirectory disk inner]
    split
    · exact nofun
    · exact noFile .encryption content mode
  rw [openAt, dif_pos length, reachable.makeDirectories (noFile .signing)]
  simp only [second noFile']
  rfl

/-! ## Clean states -/

structure Clean (store : FileStore) : Prop where
  sound : store.Sound
  reachable : Reachable store.disk store.base
  noDirectory (keyClass : KeyClass) (name : String) :
    store.disk.node? (store.classDirectory keyClass ++ [name]) ≠ some .directory

theorem Clean.withDisk {store : FileStore} (clean : store.Clean) {disk : FileSystem}
    (workDir : disk.workDir = store.disk.workDir) (sound : (store.withDisk disk).Sound)
    (same : ∀ place, disk.node? place = some .directory ↔ store.disk.node? place = some .directory) :
    (store.withDisk disk).Clean where
  sound
  reachable := clean.reachable.congr workDir fun place => (same place).2
  noDirectory keyClass name := by
    rw [classDirectory_withDisk store workDir]
    exact fun directory => clean.noDirectory keyClass name ((same _).1 directory)

theorem Clean.reopen {store : FileStore} (clean : store.Clean) :
    perform FileStore.reopen store = (.ok (), store) := by
  have node (keyClass : KeyClass) :
      store.disk.node? (FileStore.directory store.disk store.base keyClass) = some .directory :=
    (find_eq_ok_iff.1 (clean.sound.directory keyClass)).2
  have unchanged : opened store.disk store.base = store.disk := by
    rw [opened, withDirectory_of_directory (node .signing),
      withDirectory_of_directory (node .encryption)]
  have again := openAt_eq store.length_masterKey clean.reachable fun keyClass content mode => by
    rw [node keyClass]
    exact nofun
  rw [unchanged] at again
  rw [FileStore.reopen, perform_get_bind, again]
  rfl

theorem Clean.save {store : FileStore} (clean : store.Clean) {keyClass : KeyClass} {key : Key}
    (short : key.secret.length ≤ Gcm.maxTextLength) (nonce : Nonce) : ∃ after,
      perform (KeyStore.save keyClass key (.ok nonce)) store = (.ok (), after) ∧ after.Clean := by
  obtain ⟨content, written⟩ := store.exists_encode short nonce
  have way := reach_below (clean.sound.directory keyClass)
  obtain ⟨fault, refused, -⟩ | ⟨closed, drafted, moved⟩ :=
    @perform_save store keyClass _ _ _ written
  · obtain ⟨disk, done⟩ := write_ok (way _) (clean.noDirectory keyClass _)
    cases refused.symm.trans done
  · have inner := store.draftPlace_ne_nil keyClass key.id
    have apart : store.keyPlace keyClass key.id ≠ store.draftPlace keyClass key.id :=
      ne_draftPlace keyClass keyClass key.id (extension?_fileName key.id)
    obtain ⟨mode, there⟩ := drafted.drafted
    have closedWay (name : String) :
        closed.reach [] (store.classDirectory keyClass ++ [name]).dropLast = .ok () := by
      refine (reach_congr fun place short => drafted.only.2 place ?_).trans (way name)
      rintro rfl
      simp only [draftPlace, List.length_append, List.dropLast_concat, List.length_nil,
        List.length_singleton] at short
      omega
    have free : closed.node? (store.keyPlace keyClass key.id) ≠ some .directory := by
      rw [drafted.only.2 _ apart]
      exact clean.noDirectory keyClass _
    have renamed : (store.withDisk closed).disk.step (.rename (store.draftPlace keyClass key.id)
          (store.keyPlace keyClass key.id)) =
        .ok ((closed.drop (store.draftPlace keyClass key.id)).put (store.keyPlace keyClass key.id)
          (.file (Utf8.encode content) mode)) :=
      rename_ok (find_eq_ok_iff.2 ⟨closedWay _, there⟩) (closedWay _) free
    have saved := @Sound.saved _ clean.sound _ _ _ _ mode _ written drafted.only
    rw [moved, perform_onDisk, renamed]
    refine ⟨_, rfl, clean.withDisk drafted.only.1 saved.1 fun place => ?_⟩
    rw [node?_put _ (store.keyPlace_ne_nil keyClass key.id), node?_drop _ inner]
    split
    · next here => simp [here, keyPlace, clean.noDirectory]
    · split
      · next here => simp [here, draftPlace, clean.noDirectory]
      · next elsewhere => rw [drafted.only.2 place elsewhere]

theorem Clean.remove {store : FileStore} (clean : store.Clean) (gone : Uuid) :
    ∃ after, perform (KeyStore.removeEncryptionKey gone) store = (.ok (), after) ∧
      after.Clean := by
  refine ⟨_, (clean.sound.legible .encryption).remove gone, ?_⟩
  split
  · refine clean.withDisk rfl (clean.sound.dropped gone).1 fun place => ?_
    rw [node?_drop _ (by simp)]
    split
    · next here => simp [here, clean.noDirectory]
    · rfl
  · exact clean

theorem Sound.key {store : FileStore} (sound : store.Sound) (keyClass : KeyClass) (id : Uuid) :
    KeyStore.key keyClass id store =
      (KeyStore.held store keyClass id).elim (.error (.notFound id)) .ok := by
  rw [sound.held, (sound.legible keyClass).key]

/-! ## Stores with the same keys -/

/-- Two stores that hold the same keys, and none of which refuses a write. -/
structure Mirrors (files : FileStore) (memory : MemoryStore) : Prop where
  clean : files.Clean
  sound : LawfulKeyStore.Sound memory
  writable : memory.failWrites = false
  savable : memory.failSaves = false
  same (keyClass : KeyClass) (id : Uuid) : held files keyClass id = held memory keyClass id

theorem Mirrors.save {files : FileStore} {memory : MemoryStore} (mirrors : Mirrors files memory)
    {keyClass : KeyClass} {key : Key} (short : key.secret.length ≤ Gcm.maxTextLength)
    (nonce : Nonce) : ∃ after after',
      perform (KeyStore.save keyClass key (.ok nonce)) files = (.ok (), after) ∧
      perform (KeyStore.save keyClass key (.ok nonce)) memory = (.ok (), after') ∧
      Mirrors after after' := by
  obtain ⟨after, done, clean⟩ := mirrors.clean.save short nonce
  have passes : memory.checkSavable = .ok () := by
    simp [MemoryStore.checkSavable, MemoryStore.checkWritable, mirrors.writable, mirrors.savable]
  have done' : perform (KeyStore.save keyClass key (.ok nonce)) memory =
      (.ok (), memory.insert keyClass key) := MemoryStore.perform_checked passes
  have saved := LawfulKeyStore.saved mirrors.clean.sound done
  have saved' := LawfulKeyStore.saved mirrors.sound done'
  refine ⟨after, _, done, done', clean, saved'.1, ?_, ?_, fun other id => ?_⟩
  · cases keyClass <;> exact mirrors.writable
  · cases keyClass <;> exact mirrors.savable
  · rw [saved.2, saved'.2, mirrors.same]

theorem Mirrors.remove {files : FileStore} {memory : MemoryStore} (mirrors : Mirrors files memory)
    (gone : Uuid) : ∃ after after',
      perform (KeyStore.removeEncryptionKey gone) files = (.ok (), after) ∧
      perform (KeyStore.removeEncryptionKey gone) memory = (.ok (), after') ∧
      Mirrors after after' := by
  obtain ⟨after, done, clean⟩ := mirrors.clean.remove gone
  have passes : memory.checkWritable = .ok () := by
    simp [MemoryStore.checkWritable, mirrors.writable]
  have done' : perform (KeyStore.removeEncryptionKey gone) memory =
      (.ok (), { memory with encryption := memory.encryption.erase gone }) :=
    MemoryStore.perform_checked passes
  have removed := LawfulKeyStore.removed mirrors.clean.sound done
  have removed' := LawfulKeyStore.removed mirrors.sound done'
  refine ⟨after, _, done, done', clean, removed'.1, mirrors.writable, mirrors.savable,
    fun other id => ?_⟩
  rw [removed.2, removed'.2, mirrors.same]

theorem Mirrors.keys {files : FileStore} {memory : MemoryStore} (mirrors : Mirrors files memory)
    (keyClass : KeyClass) : ∃ table table', KeyStore.keys keyClass files = .ok table ∧
      KeyStore.keys keyClass memory = .ok table' ∧ table.Perm table' := by
  have sound : LawfulKeyStore.Sound files := mirrors.clean.sound
  obtain ⟨read, distinct⟩ := LawfulKeyStore.readable sound keyClass
  obtain ⟨read', distinct'⟩ := LawfulKeyStore.readable mirrors.sound keyClass
  exact ⟨_, _, read, read', distinct.perm distinct' (mirrors.same keyClass)⟩

theorem Mirrors.key {files : FileStore} {memory : MemoryStore} (mirrors : Mirrors files memory)
    (keyClass : KeyClass) (id : Uuid) :
    KeyStore.key keyClass id files = KeyStore.key keyClass id memory := by
  rw [mirrors.clean.sound.key, mirrors.same, MemoryStore.held_eq]
  change _ = memory.key keyClass id
  rw [MemoryStore.key]
  cases (memory.table keyClass).find? id <;> rfl

theorem serve_mirrors {files : FileStore} {memory : MemoryStore} (mirrors : Mirrors files memory)
    {request : StoreRequest} (sealable : request.Sealable) :
    StoreAnswer.Same (request.serve reopen files).1 (request.serve MemoryStore.reopen memory).1 ∧
      Mirrors (request.serve reopen files).2 (request.serve MemoryStore.reopen memory).2 := by
  cases request with
  | save keyClass key nonce =>
      obtain ⟨after, after', done, done', still⟩ := mirrors.save sealable nonce
      rw [StoreRequest.serve, StoreRequest.serve, done, done']
      exact ⟨.done _, still⟩
  | remove gone =>
      obtain ⟨after, after', done, done', still⟩ := mirrors.remove gone
      rw [StoreRequest.serve, StoreRequest.serve, done, done']
      exact ⟨.done _, still⟩
  | key keyClass id =>
      simp only [StoreRequest.serve, mirrors.key]
      exact ⟨.key _, mirrors⟩
  | keys keyClass =>
      obtain ⟨table, table', read, read', perm⟩ := mirrors.keys keyClass
      simp only [StoreRequest.serve, read, read']
      exact ⟨.keys perm, mirrors⟩
  | reopen =>
      simp only [StoreRequest.serve, mirrors.clean.reopen, MemoryStore.reopen, perform_pure]
      exact ⟨.done _, mirrors⟩

theorem answers_mirror {files : FileStore} {memory : MemoryStore} (mirrors : Mirrors files memory)
    {requests : List StoreRequest} (sealable : ∀ request ∈ requests, request.Sealable) :
    List.Forall₂ StoreAnswer.Same (StoreRequest.answers reopen files requests)
      (StoreRequest.answers MemoryStore.reopen memory requests) := by
  induction requests generalizing files memory with
  | nil => exact .nil
  | cons request requests ih =>
      obtain ⟨same, still⟩ := serve_mirrors mirrors (sealable request List.mem_cons_self)
      exact .cons same (ih still fun other member => sealable other (List.mem_cons_of_mem _ member))

/-! ## Empty directories -/

structure EmptyDirectory (disk : FileSystem) (base : String) : Prop extends
    Reachable disk base where
  empty (inside : Location) (below : inside ≠ []) : disk.node? (disk.locate base ++ inside) = none

theorem mirrors_empty {store : FileStore} (reachable : Reachable store.disk store.base)
    (directories : ∀ keyClass,
      store.disk.node? (store.classDirectory keyClass) = some .directory)
    (inside : ∀ keyClass name, store.disk.node? (store.classDirectory keyClass ++ [name]) = none) :
    Mirrors store MemoryStore.empty := by
  have sound : store.Sound := by
    refine ⟨fun keyClass => find_eq_ok_iff.2 ⟨?_, directories keyClass⟩,
      fun keyClass name node _ found => ?_⟩
    · rw [classDirectory, FileStore.directory, List.dropLast_concat]
      exact reach_directory reachable.found
    · cases found.symm.trans (inside keyClass name)
  refine ⟨⟨sound, reachable, fun keyClass name => ?_⟩, ⟨.nil, .nil⟩, rfl, rfl,
    fun keyClass id => ?_⟩
  · rw [inside]
    exact (Option.some_ne_none _).symm
  · rw [sound.held, entry_of_absent (inside keyClass _), MemoryStore.held_eq]
    cases keyClass <;> rfl

namespace EmptyDirectory

variable {disk : FileSystem} {base : String}

theorem absent (directory : EmptyDirectory disk base) (keyClass : KeyClass) :
    disk.node? (FileStore.directory disk base keyClass) = none :=
  directory.empty [keyClass.name] (by simp)

theorem directory_opened (directory : EmptyDirectory disk base) (keyClass : KeyClass) :
    (opened disk base).node? (FileStore.directory disk base keyClass) = some .directory := by
  have inner (keyClass : KeyClass) := directory_ne_nil disk base keyClass
  simp only [opened, node?_withDirectory _ (inner .encryption),
    node?_withDirectory _ (inner .signing), directory.absent]
  cases keyClass <;> simp [FileStore.directory, KeyClass.name]

theorem node?_opened {place : Location}
    (elsewhere : ∀ keyClass, place ≠ FileStore.directory disk base keyClass) :
    (opened disk base).node? place = disk.node? place := by
  have inner (keyClass : KeyClass) := directory_ne_nil disk base keyClass
  rw [opened, node?_withDirectory _ (inner .encryption), if_neg fun both => elsewhere _ both.1,
    node?_withDirectory _ (inner .signing), if_neg fun both => elsewhere _ both.1]

theorem inside_opened (directory : EmptyDirectory disk base) (keyClass : KeyClass)
    (name : String) :
    (opened disk base).node? (FileStore.directory disk base keyClass ++ [name]) = none := by
  rw [node?_opened fun other => by simp [FileStore.directory], FileStore.directory,
    List.append_assoc]
  exact directory.empty _ (by simp)

theorem openAt_mirrors (directory : EmptyDirectory disk base) {masterKey : Bytes}
    (length : masterKey.length = keyLength) :
    ∃ store, openAt disk base masterKey = (.ok store, store.disk) ∧
      Mirrors store MemoryStore.empty := by
  have place (keyClass : KeyClass) : FileStore.directory (opened disk base) base keyClass =
      FileStore.directory disk base keyClass :=
    directory_congr (by rw [opened, workDir_withDirectory, workDir_withDirectory]) base keyClass
  have signing := directory.toReachable.withDirectory (directory_ne_nil disk base .signing)
  have both := signing.withDirectory (directory_ne_nil disk base .encryption)
  refine ⟨_, openAt_eq length directory.toReachable fun keyClass content mode => ?_,
    mirrors_empty both (fun keyClass => ?_) fun keyClass name => ?_⟩
  · rw [directory.absent]
    exact (Option.some_ne_none _).symm
  · rw [classDirectory, place]
    exact directory.directory_opened keyClass
  · rw [classDirectory, place]
    exact directory.inside_opened keyClass name

end EmptyDirectory

/-- From an empty directory on, nobody can tell whether keys are kept in files or in memory. -/
theorem answers_as_memory {disk : FileSystem} {base : String} {masterKey : Bytes}
    (directory : EmptyDirectory disk base) (length : masterKey.length = keyLength)
    {requests : List StoreRequest} (sealable : ∀ request ∈ requests, request.Sealable) :
    ∃ store, openAt disk base masterKey = (.ok store, store.disk) ∧
      List.Forall₂ StoreAnswer.Same (StoreRequest.answers reopen store requests)
        (StoreRequest.answers MemoryStore.reopen MemoryStore.empty requests) := by
  obtain ⟨store, opened, mirrors⟩ := directory.openAt_mirrors length
  exact ⟨store, opened, answers_mirror mirrors sealable⟩

def firstKey : Key :=
  ⟨.zero, [], ⟨-8334601228800, 999999999, by decide, by decide, by decide⟩⟩

def keptAndRemoved (nonce : Nonce) : List StoreRequest :=
  [.save .encryption firstKey nonce, .reopen, .key .encryption .zero, .key .signing .zero,
    .remove .zero, .keys .encryption]

theorem answers_keptAndRemoved :
    let disk : FileSystem := ⟨[(["keys"], .directory)], []⟩
    let masterKey : Bytes := List.replicate keyLength 9
    let requests := keptAndRemoved ⟨List.replicate Gcm.nonceLength 0, by decide⟩
    EmptyDirectory disk "/keys" ∧ masterKey.length = keyLength ∧
      (∀ request ∈ requests, request.Sealable) ∧
      ∃ store, openAt disk "/keys" masterKey = (.ok store, store.disk) ∧
        List.Forall₂ StoreAnswer.Same (StoreRequest.answers reopen store requests)
          [.done (.ok ()), .done (.ok ()), .key (.ok firstKey),
            .key (.error (.notFound .zero)), .done (.ok ()), .keys (.ok [])] := by
  intro disk masterKey requests
  have place : disk.locate "/keys" = ["keys"] := by decide
  have directory : EmptyDirectory disk "/keys" := by
    refine ⟨⟨?_, ?_, fun keyClass => ?_⟩, fun inside below => ?_⟩
    · rw [place]
      rfl
    · rw [place]
      rfl
    · cases keyClass <;> rfl
    · cases inside with
      | nil => exact absurd rfl below
      | cons name inside => simp [place, disk, node?]
  have length : masterKey.length = keyLength := List.length_replicate
  have sealable : ∀ request ∈ requests, request.Sealable := by
    intro request inside
    simp only [requests, keptAndRemoved, List.mem_cons, List.not_mem_nil, or_false] at inside
    rcases inside with rfl | rfl | rfl | rfl | rfl | rfl
    · exact Nat.zero_le _
    all_goals trivial
  obtain ⟨store, opens, alike⟩ := answers_as_memory directory length sealable
  exact ⟨directory, length, sealable, store, opens, alike⟩

end FileStore

end Bearer
