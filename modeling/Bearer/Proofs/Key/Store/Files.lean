import Bearer.Proofs.Key.Store.Listing

namespace Bearer.FileStore

open FileSystem KeyStore

/-! ## Sound states -/

def IsRecord (masterKey : Bytes) (name : String) (node : Node) : Prop :=
  ∃ key nonce content mode, name = fileName key.id ∧ encode masterKey key nonce = .ok content ∧
    node = .file (Utf8.encode content) mode

structure Sound (store : FileStore) : Prop where
  directory (keyClass : KeyClass) : store.disk.find (store.classDirectory keyClass) = .ok .directory
  records (keyClass : KeyClass) (name : String) (node : Node)
    (byName : extension? name = recordSuffix)
    (found : store.disk.node? (store.classDirectory keyClass ++ [name]) = some node) :
    IsRecord store.masterKey name node

theorem Sound.id_of_entry {store : FileStore} (sound : store.Sound) {keyClass : KeyClass}
    {name : String} {key : Key} (found : store.entry keyClass name = some key) :
    name = fileName key.id := by
  by_cases byName : extension? name = recordSuffix
  · cases there : store.disk.node? (store.classDirectory keyClass ++ [name]) with
    | none => simp [entry, byName, there] at found
    | some node =>
        obtain ⟨held, nonce, content, mode, rfl, written, rfl⟩ :=
          sound.records keyClass name node byName there
        rw [entry_of_record byName written there] at found
        rw [Option.some.inj found]
  · simp [entry, byName] at found

theorem Sound.legible {store : FileStore} (sound : store.Sound) (keyClass : KeyClass) :
    store.Legible keyClass where
  directory := sound.directory keyClass
  records {name} byName listed := by
    obtain ⟨node, found⟩ := Option.isSome_iff_exists.1 listed
    obtain ⟨key, nonce, content, mode, rfl, written, rfl⟩ :=
      sound.records keyClass name node byName found
    rw [entry_of_record byName written found]
    rfl

theorem Sound.placed {store : FileStore} (sound : store.Sound) (keyClass : KeyClass) (id : Uuid) :
    store.Placed keyClass id := by
  intro name key found
  rw [sound.id_of_entry found, fileName_injective.eq_iff]

theorem Sound.keys {store : FileStore} (sound : store.Sound) (keyClass : KeyClass) :
    ∃ table, KeyStore.keys keyClass store = .ok table ∧ table.Distinct ∧
      ∀ id, table.find? id = store.entry keyClass (fileName id) :=
  ⟨_, keys_eq_ok_iff.2 ⟨sound.legible keyClass, rfl⟩, KeyTable.distinct_ofList _,
    fun id => (sound.placed keyClass id).find?_contents⟩

theorem Sound.held {store : FileStore} (sound : store.Sound) (keyClass : KeyClass) (id : Uuid) :
    KeyStore.held store keyClass id = store.entry keyClass (fileName id) := by
  obtain ⟨table, read, -, found⟩ := sound.keys keyClass
  rw [KeyStore.held, table_of_keys read, found]

/-! ## Writes -/

theorem perform_onDisk (step : Step) (store : FileStore) : perform (onDisk step) store =
    match store.disk.step step with
    | .ok disk => (.ok (), store.withDisk disk)
    | .error fault => (.error (.io fault), store) := by
  rw [onDisk, perform_get_bind]
  cases store.disk.step step <;> rfl

def OnlyAt (place : Location) (before after : FileSystem) : Prop :=
  after.workDir = before.workDir ∧ ∀ other, other ≠ place → after.node? other = before.node? other

theorem OnlyAt.refl (place : Location) (disk : FileSystem) : OnlyAt place disk disk :=
  ⟨rfl, fun _ _ => rfl⟩

theorem OnlyAt.trans {place : Location} {before between after : FileSystem}
    (first : OnlyAt place before between) (second : OnlyAt place between after) :
    OnlyAt place before after :=
  ⟨second.1.trans first.1, fun other apart => (second.2 other apart).trans (first.2 other apart)⟩

theorem onlyAt_put {place : Location} (inner : place ≠ []) (disk : FileSystem) (node : Node) :
    OnlyAt place disk (disk.put place node) :=
  ⟨rfl, fun other apart => by rw [node?_put disk inner, if_neg apart]⟩

structure Drafted (store : FileStore) (place : Location) (content : Bytes) (disk : FileSystem) :
    Prop where
  only : OnlyAt place store.disk disk
  drafted : ∃ mode, disk.node? place = some (.file content mode)

theorem drafted_write {store : FileStore} {place : Location} (inner : place ≠ []) {content : Bytes}
    {disk : FileSystem} (done : store.disk.step (.write place content) = .ok disk) :
    Drafted store place content disk := by
  obtain ⟨mode, rfl⟩ := write_eq_ok done
  exact ⟨onlyAt_put inner _ _, mode, by rw [node?_put _ inner, if_pos rfl]⟩

theorem Drafted.setMode {store : FileStore} {place : Location} (inner : place ≠ [])
    {content : Bytes} {disk after : FileSystem} {mode : Nat}
    (drafted : Drafted store place content disk)
    (done : disk.step (.setMode place mode) = .ok after) : Drafted store place content after := by
  obtain ⟨before, there⟩ := drafted.drafted
  rcases setMode_eq_ok done with rfl | ⟨held, _, found, rfl⟩
  · exact drafted
  · rw [there] at found
    cases found
    exact ⟨drafted.only.trans (onlyAt_put inner _ _), mode, by rw [node?_put _ inner, if_pos rfl]⟩

theorem perform_save {store : FileStore} {keyClass : KeyClass} {key : Key} {nonce : Drawn Nonce}
    {content : String} (written : encode store.masterKey key nonce = .ok content) :
    (∃ fault, store.disk.step (.write (store.draftPlace keyClass key.id) (Utf8.encode content)) =
        .error fault ∧
      perform (KeyStore.save keyClass key nonce) store = (.error (.io fault), store)) ∨
    ∃ closed, Drafted store (store.draftPlace keyClass key.id) (Utf8.encode content) closed ∧
      perform (KeyStore.save keyClass key nonce) store =
        perform (onDisk (.rename (store.draftPlace keyClass key.id)
          (store.keyPlace keyClass key.id))) (store.withDisk closed) := by
  have inner := store.draftPlace_ne_nil keyClass key.id
  change (∃ fault, _ ∧ perform (FileStore.save keyClass key nonce) store = _) ∨
    ∃ closed, _ ∧ perform (FileStore.save keyClass key nonce) store = _
  rw [FileStore.save, perform_get_bind, written, perform_ok_bind, perform_bind, perform_onDisk]
  cases drafting : store.disk.step
      (.write (store.draftPlace keyClass key.id) (Utf8.encode content)) with
  | error fault => exact .inl ⟨fault, rfl, rfl⟩
  | ok disk =>
      have start := drafted_write inner drafting
      -- The mode of the draft is changed or not; the draft is there in either case.
      refine .inr ?_
      simp only [perform_bind, perform_tryCatch, perform_onDisk]
      cases closing : (store.withDisk disk).disk.step
          (.setMode (store.draftPlace keyClass key.id) ownerOnly) with
      | error fault => exact ⟨disk, start, rfl⟩
      | ok closed => exact ⟨closed, start.setMode inner closing, rfl⟩

theorem save_cases {store after : FileStore} {keyClass : KeyClass} {key : Key} {nonce : Drawn Nonce}
    {outcome : Except StoreError Unit}
    (done : perform (KeyStore.save keyClass key nonce) store = (outcome, after)) :
    (∃ disk fault, outcome = .error fault ∧ after = store.withDisk disk ∧
      OnlyAt (store.draftPlace keyClass key.id) store.disk disk) ∨
    ∃ disk content mode, outcome = .ok () ∧ encode store.masterKey key nonce = .ok content ∧
      OnlyAt (store.draftPlace keyClass key.id) store.disk disk ∧
      after = store.withDisk ((disk.drop (store.draftPlace keyClass key.id)).put
        (store.keyPlace keyClass key.id) (.file (Utf8.encode content) mode)) := by
  cases written : encode store.masterKey key nonce with
  | error fault =>
      change perform (FileStore.save keyClass key nonce) store = _ at done
      rw [FileStore.save, perform_get_bind, written, perform_error_bind] at done
      obtain ⟨rfl, rfl⟩ := Prod.mk.inj done
      exact .inl ⟨store.disk, fault, rfl, rfl, .refl _ _⟩
  | ok content =>
      obtain ⟨fault, -, refused⟩ | ⟨closed, drafted, moved⟩ :=
        @perform_save store keyClass _ _ _ written
      · obtain ⟨rfl, rfl⟩ := Prod.mk.inj (done.symm.trans refused)
        exact .inl ⟨after.disk, _, rfl, rfl, .refl _ _⟩
      · obtain ⟨mode, there⟩ := drafted.drafted
        rw [moved, perform_onDisk] at done
        cases moving : (store.withDisk closed).disk.step (.rename
            (store.draftPlace keyClass key.id) (store.keyPlace keyClass key.id)) with
        | error fault =>
            simp only [moving] at done
            obtain ⟨rfl, rfl⟩ := Prod.mk.inj done
            exact .inl ⟨closed, _, rfl, rfl, drafted.only⟩
        | ok final =>
            simp only [moving] at done
            obtain ⟨rfl, rfl⟩ := Prod.mk.inj done
            obtain ⟨node, found, rfl⟩ := rename_eq_ok moving
            obtain rfl := Option.some.inj (there.symm.trans found)
            exact .inr ⟨closed, content, mode, rfl, rfl, drafted.only, rfl⟩

/-! ## What writes leave -/

theorem Sound.withDisk {store : FileStore} (sound : store.Sound) {disk : FileSystem}
    (workDir : disk.workDir = store.disk.workDir)
    (way : ∀ place : Location, place.length ≤ (store.disk.locate store.base).length + 1 →
      disk.node? place = store.disk.node? place)
    (records : ∀ keyClass name node, extension? name = recordSuffix →
      disk.node? (store.classDirectory keyClass ++ [name]) = some node →
        IsRecord store.masterKey name node) : (store.withDisk disk).Sound where
  directory keyClass := by
    have length : (store.classDirectory keyClass).length =
        (store.disk.locate store.base).length + 1 := by
      simp [classDirectory, FileStore.directory]
    obtain ⟨reached, node⟩ := find_eq_ok_iff.1 (sound.directory keyClass)
    rw [classDirectory_withDisk store workDir, find_eq_ok_iff]
    refine ⟨?_, (way _ (Nat.le_of_eq length)).trans node⟩
    rw [← reached]
    refine reach_congr fun place short => way place ?_
    rw [List.length_dropLast, length] at short
    simp only [List.length_nil] at short
    omega
  records keyClass name node byName found := by
    rw [classDirectory_withDisk store workDir] at found
    exact records keyClass name node byName found

theorem Sound.drafted {store : FileStore} (sound : store.Sound) {keyClass : KeyClass} {id : Uuid}
    {disk : FileSystem} (only : OnlyAt (store.draftPlace keyClass id) store.disk disk) :
    (store.withDisk disk).Sound ∧
      ∀ other other', KeyStore.held (store.withDisk disk) other other' =
        KeyStore.held store other other' := by
  have same (other : KeyClass) (name : String) (byName : extension? name = recordSuffix) :
      disk.node? (store.classDirectory other ++ [name]) =
        store.disk.node? (store.classDirectory other ++ [name]) :=
    only.2 _ (ne_draftPlace other keyClass id byName)
  have after : (store.withDisk disk).Sound := by
    refine sound.withDisk only.1 (fun place shallow => only.2 place (ne_of_shallow shallow))
      fun other name node byName found => sound.records other name node byName ?_
    rw [← same other name byName, found]
  refine ⟨after, fun other other' => ?_⟩
  rw [after.held, sound.held, entry_withDisk only.1 (same other (fileName other'))]

theorem Sound.saved {store : FileStore} (sound : store.Sound) {keyClass : KeyClass} {key : Key}
    {nonce : Drawn Nonce} {content : String} {mode : Nat} {disk : FileSystem}
    (written : encode store.masterKey key nonce = .ok content)
    (only : OnlyAt (store.draftPlace keyClass key.id) store.disk disk) :
    let final := (disk.drop (store.draftPlace keyClass key.id)).put
      (store.keyPlace keyClass key.id) (.file (Utf8.encode content) mode)
    (store.withDisk final).Sound ∧
      ∀ other id, KeyStore.held (store.withDisk final) other id =
        if other = keyClass ∧ id = key.id then some key else KeyStore.held store other id := by
  intro final
  have inner := store.draftPlace_ne_nil keyClass key.id
  -- Beside the place of the draft, only that of the record holds another thing than before.
  have node (place : Location) (apart : place ≠ store.draftPlace keyClass key.id) :
      final.node? place = if place = store.keyPlace keyClass key.id
        then some (.file (Utf8.encode content) mode) else store.disk.node? place := by
    rw [node?_put _ (store.keyPlace_ne_nil keyClass key.id), node?_drop _ inner, if_neg apart,
      only.2 place apart]
  have after : (store.withDisk final).Sound := by
    refine sound.withDisk only.1 (fun place shallow => ?_) fun other name held byName found => ?_
    · exact (node place (ne_of_shallow shallow)).trans (if_neg (ne_of_shallow shallow))
    · rw [node _ (ne_draftPlace other keyClass key.id byName)] at found
      split at found
      · next here =>
          obtain ⟨-, rfl⟩ := place_eq_iff.1 here
          exact ⟨key, nonce, content, mode, rfl, written, (Option.some.inj found).symm⟩
      · exact sound.records other name held byName found
  refine ⟨after, fun other id => ?_⟩
  rw [after.held, sound.held]
  have apart : store.classDirectory other ++ [fileName id] ≠ store.draftPlace keyClass key.id :=
    ne_draftPlace other keyClass key.id (extension?_fileName id)
  split
  · next here =>
      obtain ⟨rfl, rfl⟩ := here
      have found : (store.withDisk final).disk.node?
          ((store.withDisk final).classDirectory other ++ [fileName key.id]) =
            some (.file (Utf8.encode content) mode) := by
        rw [classDirectory_withDisk store (show final.workDir = store.disk.workDir from only.1)]
        exact (node _ apart).trans (if_pos rfl)
      exact entry_of_record (extension?_fileName key.id) written found
  · next elsewhere =>
      refine entry_withDisk only.1 fun _ => ?_
      rw [node _ apart, if_neg]
      intro here
      obtain ⟨same, names⟩ := place_eq_iff.1 here
      exact elsewhere ⟨same, fileName_injective names⟩

theorem Sound.dropped {store : FileStore} (sound : store.Sound) (gone : Uuid) :
    let final := store.disk.drop (store.keyPlace .encryption gone)
    (store.withDisk final).Sound ∧
      ∀ other id, KeyStore.held (store.withDisk final) other id =
        if other = .encryption ∧ id = gone then none else KeyStore.held store other id := by
  intro final
  have node (place : Location) : final.node? place =
      if place = store.keyPlace .encryption gone then none else store.disk.node? place :=
    node?_drop _ (store.keyPlace_ne_nil .encryption gone) place
  have after : (store.withDisk final).Sound := by
    refine sound.withDisk rfl (fun place shallow => ?_) fun other name held byName found => ?_
    · exact (node place).trans (if_neg (ne_of_shallow shallow))
    · rw [node] at found
      split at found
      · cases found
      · exact sound.records other name held byName found
  refine ⟨after, fun other id => ?_⟩
  rw [after.held, sound.held]
  split
  · next here =>
      obtain ⟨rfl, rfl⟩ := here
      refine entry_of_absent ?_
      rw [classDirectory_withDisk store (show final.workDir = store.disk.workDir from rfl)]
      exact (node _).trans (if_pos rfl)
  · next elsewhere =>
      refine entry_withDisk rfl fun _ => ?_
      rw [node, if_neg]
      intro here
      obtain ⟨same, names⟩ := place_eq_iff.1 here
      exact elsewhere ⟨same, fileName_injective names⟩

theorem Sound.absent {store : FileStore} (sound : store.Sound) {id : Uuid}
    (missing : ¬store.disk.pathExists (store.keyPlace .encryption id) = true) :
    KeyStore.held store .encryption id = none := by
  rw [sound.held, entry_of_absent]
  simpa [pathExists, keyPlace] using missing

theorem Legible.remove {store : FileStore} (legible : store.Legible .encryption) (gone : Uuid) :
    perform (KeyStore.removeEncryptionKey gone) store = (.ok (),
      if store.disk.pathExists (store.keyPlace .encryption gone) = true
        then store.withoutFile .encryption (fileName gone) else store) := by
  change perform (FileStore.removeEncryptionKey gone) store = _
  rw [FileStore.removeEncryptionKey, perform_get_bind, perform_get_bind]
  split
  · next there =>
      obtain ⟨content, mode, found⟩ : ∃ content mode,
          store.disk.find (store.keyPlace .encryption gone) = .ok (.file content mode) :=
        legible.file (extension?_fileName gone) there
      rw [perform_onDisk, remove_ok found]
      rfl
  · rfl

theorem remove_cases {store after : FileStore} {gone : Uuid} {outcome : Except StoreError Unit}
    (done : perform (KeyStore.removeEncryptionKey gone) store = (outcome, after)) :
    (∃ fault, outcome = .error fault ∧ after = store) ∨
    (outcome = .ok () ∧ after = store ∧
      ¬store.disk.pathExists (store.keyPlace .encryption gone) = true) ∨
    (outcome = .ok () ∧
      after = store.withDisk (store.disk.drop (store.keyPlace .encryption gone))) := by
  change perform (FileStore.removeEncryptionKey gone) store = _ at done
  rw [FileStore.removeEncryptionKey, perform_get_bind, perform_get_bind] at done
  split at done
  · rw [perform_onDisk] at done
    cases removing : store.disk.step (.remove (store.keyPlace .encryption gone)) with
    | error fault =>
        simp only [removing] at done
        obtain ⟨rfl, rfl⟩ := Prod.mk.inj done
        exact .inl ⟨_, rfl, rfl⟩
    | ok disk =>
        simp only [removing] at done
        obtain ⟨rfl, rfl⟩ := Prod.mk.inj done
        obtain rfl := remove_eq_ok removing
        exact .inr (.inr ⟨rfl, rfl⟩)
  · next missing =>
      rw [perform_pure] at done
      obtain ⟨rfl, rfl⟩ := Prod.mk.inj done
      exact .inr (.inl ⟨rfl, rfl, missing⟩)

instance : LawfulKeyStore FileStore where
  Sound := Sound
  readable sound keyClass := by
    obtain ⟨table, read, distinct, -⟩ := sound.keys keyClass
    rw [table_of_keys read]
    exact ⟨read, distinct⟩
  saves keyClass key nonce :=
    { done := fun sound done => by
        rcases save_cases done with ⟨_, _, ⟨⟩, _⟩ | ⟨disk, content, mode, -, written, only, rfl⟩
        exact sound.saved written only
      failed := fun sound failed => by
        rcases save_cases failed with ⟨disk, _, -, rfl, only⟩ | ⟨_, _, _, ⟨⟩, _⟩
        exact sound.drafted only }
  removes gone :=
    { done := fun sound done => by
        rcases remove_cases done with ⟨_, ⟨⟩, _⟩ | ⟨-, rfl, missing⟩ | ⟨-, rfl⟩
        · refine ⟨sound, fun other id => ?_⟩
          split
          · next here =>
              obtain ⟨rfl, rfl⟩ := here
              exact sound.absent missing
          · rfl
        · exact sound.dropped gone
      failed := fun sound failed => by
        rcases remove_cases failed with ⟨_, -, rfl⟩ | ⟨⟨⟩, _⟩ | ⟨⟨⟩, _⟩
        exact ⟨sound, fun _ _ => rfl⟩ }

end Bearer.FileStore
