import Bearer.Proofs.Key.Store.Views
/-!
# Interrupted saves

A save writes a record to its draft, closes the draft to others, and moves it to its place.

* `Frail`: a store each of whose next steps may fail, or be the one during which the machine stops.
* `interrupted`: a save in a frail store. It is the save itself where nothing happens to any step
  (`interrupted_nil`).
* `Ending`: what an interrupted save can leave.
* `interrupted_save_atomic`: a listing shows the key that is saved, or all is as it was; and the next
  save of the key makes up for the one that was interrupted.
-/

namespace Bearer.FileStore

open FileSystem KeyStore

/-! ## Steps that do not come to their end -/

/-- What becomes of a step. One that fails or during which the machine stops has had its effect or
none. If it writes a file, then any number of bytes may have been written. -/
inductive Fate where
  | done
  | failed (fault : StoreError) (count : Option Nat)
  | stopped (count : Option Nat)

structure Frail where
  store : FileStore
  fates : List Fate
  running : Bool

def cut : Step → Nat → Step
  | .write place content, count => .write place (content.take count)
  | step, _ => step

def left (store : FileStore) (step : Step) : Option Nat → FileStore
  | none => store
  | some count => (perform (onDisk (cut step count)) store).2

def Frail.onDisk (step : Step) : StoreM Frail Unit := fun frail =>
  if frail.running then
    match frail.fates.headD .done with
    | .done =>
        let (outcome, store) := perform (FileStore.onDisk step) frail.store
        (outcome, ⟨store, frail.fates.tail, true⟩)
    | .failed fault count => (.error fault, ⟨frail.store.left step count, frail.fates.tail, true⟩)
    | .stopped count => (.ok (), ⟨frail.store.left step count, frail.fates.tail, false⟩)
  else (.ok (), frail)

def placeBy {σ : Type} (act : Step → StoreM σ Unit) (draft place : Location) (content : Bytes) :
    StoreM σ Unit := do
  act (.write draft content)
  tryCatch (act (.setMode draft ownerOnly)) fun _ => pure ()
  act (.rename draft place)

def saveBy {σ : Type} (act : Step → StoreM σ Unit) (store : FileStore) (keyClass : KeyClass)
    (key : Key) (nonce : Drawn Nonce) : StoreM σ Unit := do
  let content ← encode store.masterKey key nonce
  placeBy act (store.draftPlace keyClass key.id) (store.keyPlace keyClass key.id)
    (Utf8.encode content)

theorem save_eq_saveBy (keyClass : KeyClass) (key : Key) (nonce : Drawn Nonce) :
    KeyStore.save keyClass key nonce =
      (do saveBy onDisk (← get) keyClass key nonce : StoreM FileStore Unit) := rfl

def Frail.report (result : Except StoreError Unit × Frail) :
    Option (Except StoreError Unit) × FileStore :=
  (if result.2.running then some result.1 else none, result.2.store)

def interrupted (fates : List Fate) (keyClass : KeyClass) (key : Key) (nonce : Drawn Nonce)
    (store : FileStore) : Option (Except StoreError Unit) × FileStore :=
  Frail.report (perform (saveBy Frail.onDisk store keyClass key nonce) ⟨store, fates, true⟩)

section Steps

variable {store : FileStore} {fates : List Fate} {step : Step}

theorem perform_frail_done (fate : fates.headD .done = .done) :
    perform (Frail.onDisk step) ⟨store, fates, true⟩ =
      ((perform (onDisk step) store).1, ⟨(perform (onDisk step) store).2, fates.tail, true⟩) := by
  simp only [perform, ExceptT.run, StateT.run, Frail.onDisk, if_true, fate]

theorem perform_frail_failed {fault : StoreError} {count : Option Nat}
    (fate : fates.headD .done = .failed fault count) :
    perform (Frail.onDisk step) ⟨store, fates, true⟩ =
      (.error fault, ⟨store.left step count, fates.tail, true⟩) := by
  simp only [perform, ExceptT.run, StateT.run, Frail.onDisk, if_true, fate]

theorem perform_frail_stopped {count : Option Nat} (fate : fates.headD .done = .stopped count) :
    perform (Frail.onDisk step) ⟨store, fates, true⟩ =
      (.ok (), ⟨store.left step count, fates.tail, false⟩) := by
  simp only [perform, ExceptT.run, StateT.run, Frail.onDisk, if_true, fate]

theorem perform_frail_still :
    perform (Frail.onDisk step) ⟨store, fates, false⟩ = (.ok (), ⟨store, fates, false⟩) := rfl

end Steps

theorem interrupted_nil (keyClass : KeyClass) (key : Key) (nonce : Drawn Nonce) (store : FileStore) :
    interrupted [] keyClass key nonce store =
      (some (perform (KeyStore.save keyClass key nonce) store).1,
        (perform (KeyStore.save keyClass key nonce) store).2) := by
  have step (store : FileStore) (step : Step) :
      perform (Frail.onDisk step) ⟨store, [], true⟩ =
        ((perform (onDisk step) store).1, ⟨(perform (onDisk step) store).2, [], true⟩) :=
    perform_frail_done rfl
  rw [save_eq_saveBy, perform_get_bind, interrupted, Frail.report, saveBy, saveBy]
  cases encode store.masterKey key nonce with
  | error fault => rfl
  | ok content =>
      rw [perform_ok_bind, perform_ok_bind, placeBy, placeBy, perform_bind, perform_bind, step]
      rcases perform (onDisk (.write (store.draftPlace keyClass key.id) (Utf8.encode content))) store
        with ⟨_ | _, between⟩
      · rfl
      · simp only [perform_bind, perform_tryCatch, step]
        rcases perform (onDisk (.setMode (store.draftPlace keyClass key.id) ownerOnly)) between
          with ⟨_ | _, closed⟩ <;> simp only [step, perform_pure, if_true]

/-! ## Steps in one directory -/

section Directory

variable {store : FileStore} {keyClass : KeyClass} {name draft : String}
  (directory : store.disk.find (store.classDirectory keyClass) = .ok .directory)
include directory

theorem perform_write (content : Bytes)
    (free : store.disk.node? (store.classDirectory keyClass ++ [name]) ≠ some .directory) :
    ∃ mode, perform (onDisk (.write (store.classDirectory keyClass ++ [name]) content)) store =
      (.ok (), store.withFile keyClass name (.file content mode)) := by
  obtain ⟨after, done⟩ := @write_ok _ _ content (reach_below directory name) free
  obtain ⟨mode, rfl⟩ := write_eq_ok done
  exact ⟨mode, by rw [perform_onDisk, done]; rfl⟩

theorem perform_write_directory (content : Bytes)
    (there : store.disk.node? (store.classDirectory keyClass ++ [name]) = some .directory) :
    perform (onDisk (.write (store.classDirectory keyClass ++ [name]) content)) store =
      (.error (.io .isDirectory), store) := by
  rw [perform_onDisk, FileSystem.step, reach_below directory name, ok_bind, there]
  rfl

theorem reach_withFile (name other : String) (node : Node) :
    (store.withFile keyClass name node).disk.reach []
      (store.classDirectory keyClass ++ [other]).dropLast = .ok () := by
  rw [List.dropLast_concat]
  exact reach_directory
    ((((Within.refl store keyClass).put name node).find_directory keyClass).trans directory)

theorem find_withFile (name : String) (node : Node) : (store.withFile keyClass name node).disk.find
    (store.classDirectory keyClass ++ [name]) = .ok node :=
  find_eq_ok_iff.2 ⟨reach_withFile directory name name node, node?_withFile_self⟩

theorem perform_setMode (content : Bytes) (before mode : Nat) :
    perform (onDisk (.setMode (store.classDirectory keyClass ++ [name]) mode))
      (store.withFile keyClass name (.file content before)) =
      (.ok (), store.withFile keyClass name (.file content mode)) := by
  have changed := setMode_ok (find_withFile directory name (.file content before)) mode
  rw [perform_onDisk, changed]
  exact congrArg (Prod.mk (Except.ok ())) withFile_withFile

theorem perform_rename (node : Node) (apart : name ≠ draft)
    (free : store.disk.node? (store.classDirectory keyClass ++ [name]) ≠ some .directory) :
    perform (onDisk (.rename (store.classDirectory keyClass ++ [draft])
        (store.classDirectory keyClass ++ [name]))) (store.withFile keyClass draft node) =
      (.ok (), (store.withoutFile keyClass draft).withFile keyClass name node) := by
  have moved := rename_ok (find_withFile directory draft node)
    (reach_withFile directory draft name node) (by rwa [node?_withFile_of_ne apart])
  rw [perform_onDisk, moved]
  exact congrArg (fun store : FileStore => (Except.ok (), store.withFile keyClass name node))
    withFile_withoutFile

end Directory

/-! ## What is left of a save -/

def draftName (id : Uuid) : String := fileName id ++ ".tmp"

def written (store : FileStore) (keyClass : KeyClass) (id : Uuid) (node : Node) : FileStore :=
  (store.withoutFile keyClass (draftName id)).withFile keyClass (fileName id) node

inductive Ending (store : FileStore) (keyClass : KeyClass) (id : Uuid) (content : Bytes)
    (closed : Prop) (outcome : Option (Except StoreError Unit)) : FileStore → Prop where
  | untouched (unfinished : outcome ≠ some (.ok ())) :
      Ending store keyClass id content closed outcome store
  | drafted (unfinished : outcome ≠ some (.ok ())) (part : Bytes) (mode : Nat)
      (free : store.disk.node? (store.draftPlace keyClass id) ≠ some .directory) :
      Ending store keyClass id content closed outcome
        (store.withFile keyClass (draftName id) (.file part mode))
  | placed (mode : Nat) (isClosed : closed → mode = ownerOnly)
      (free : store.disk.node? (store.draftPlace keyClass id) ≠ some .directory) :
      Ending store keyClass id content closed outcome
        (store.written keyClass id (.file content mode))

theorem fileName_ne_draftName (id : Uuid) : fileName id ≠ draftName id := by
  intro same
  exact extension?_draft id ((congrArg extension? same).symm.trans (extension?_fileName id))

section Left

variable {store : FileStore} {keyClass : KeyClass} {id : Uuid} (legible : store.Legible keyClass)
include legible

theorem Legible.noDirectory (id : Uuid) :
    store.disk.node? (store.classDirectory keyClass ++ [fileName id]) ≠ some .directory := by
  intro directory
  have there : store.disk.pathExists (store.classDirectory keyClass ++ [fileName id]) = true := by
    rw [pathExists, directory]
    rfl
  obtain ⟨content, mode, found⟩ := legible.file (extension?_fileName id) there
  have isFile := (find_eq_ok_iff.1 found).2
  rw [directory] at isFile
  cases isFile

theorem perform_place (node : Node) : perform (onDisk (.rename (store.draftPlace keyClass id)
      (store.keyPlace keyClass id))) (store.withFile keyClass (draftName id) node) =
    (.ok (), store.written keyClass id node) :=
  perform_rename legible.directory node (fileName_ne_draftName id) (legible.noDirectory id)

theorem perform_draft (content : Bytes)
    (free : store.disk.node? (store.draftPlace keyClass id) ≠ some .directory) :
    ∃ mode, perform (onDisk (.write (store.draftPlace keyClass id) content)) store =
      (.ok (), store.withFile keyClass (draftName id) (.file content mode)) :=
  perform_write legible.directory content free

theorem perform_close (id : Uuid) (content : Bytes) (mode : Nat) :
    perform (onDisk (.setMode (store.draftPlace keyClass id) ownerOnly))
      (store.withFile keyClass (draftName id) (.file content mode)) =
        (.ok (), store.withFile keyClass (draftName id) (.file content ownerOnly)) :=
  perform_setMode legible.directory content mode ownerOnly

theorem left_write (free : store.disk.node? (store.draftPlace keyClass id) ≠ some .directory)
    (content : Bytes) (count : Option Nat) :
    store.left (.write (store.draftPlace keyClass id) content) count = store ∨
      ∃ part mode, store.left (.write (store.draftPlace keyClass id) content) count =
        store.withFile keyClass (draftName id) (.file part mode) := by
  cases count with
  | none => exact .inl rfl
  | some count =>
      obtain ⟨mode, done⟩ := perform_draft legible (content.take count) free
      exact .inr ⟨_, mode, congrArg Prod.snd done⟩

theorem left_setMode (id : Uuid) (content : Bytes) (before : Nat) (count : Option Nat) :
    ∃ mode, (store.withFile keyClass (draftName id) (.file content before)).left
      (.setMode (store.draftPlace keyClass id) ownerOnly) count =
        store.withFile keyClass (draftName id) (.file content mode) := by
  cases count with
  | none => exact ⟨before, rfl⟩
  | some count => exact ⟨ownerOnly, congrArg Prod.snd (perform_close legible id content before)⟩

theorem left_rename (node : Node) (count : Option Nat) :
    (store.withFile keyClass (draftName id) node).left
        (.rename (store.draftPlace keyClass id) (store.keyPlace keyClass id)) count =
      store.withFile keyClass (draftName id) node ∨
    (store.withFile keyClass (draftName id) node).left
        (.rename (store.draftPlace keyClass id) (store.keyPlace keyClass id)) count =
      store.written keyClass id node := by
  cases count with
  | none => exact .inl rfl
  | some count => exact .inr (congrArg Prod.snd (perform_place legible node))

end Left

section Endings

variable {store : FileStore} {keyClass : KeyClass} {id : Uuid} {content : Bytes} {closed : Prop}
  (legible : store.Legible keyClass)
  (free : store.disk.node? (store.draftPlace keyClass id) ≠ some .directory)
include legible free

theorem ending_rename (fates : List Fate) (mode : Nat) (isClosed : closed → mode = ownerOnly) :
    let result := perform (Frail.onDisk (.rename (store.draftPlace keyClass id)
      (store.keyPlace keyClass id)))
        ⟨store.withFile keyClass (draftName id) (.file content mode), fates, true⟩
    Ending store keyClass id content closed (Frail.report result).1
      (Frail.report result).2 := by
  intro result
  have left (count : Option Nat) {outcome : Option (Except StoreError Unit)}
      (unfinished : outcome ≠ some (.ok ())) : Ending store keyClass id content closed outcome
        ((store.withFile keyClass (draftName id) (.file content mode)).left
          (.rename (store.draftPlace keyClass id) (store.keyPlace keyClass id)) count) := by
    rcases left_rename legible (.file content mode) count with same | moved
    · rw [same]
      exact .drafted unfinished _ mode free
    · rw [moved]
      exact .placed mode isClosed free
  cases fate : fates.headD .done with
  | done =>
      simp only [result, perform_frail_done fate, perform_place legible, Frail.report]
      exact .placed mode isClosed free
  | failed fault count =>
      simp only [result, perform_frail_failed fate, Frail.report]
      exact left count (by simp)
  | stopped count =>
      simp only [result, perform_frail_stopped fate, Frail.report]
      exact left count (by simp)

theorem ending_place (fates : List Fate) :
    let result := perform (placeBy Frail.onDisk (store.draftPlace keyClass id)
      (store.keyPlace keyClass id) content) ⟨store, fates, true⟩
    Ending store keyClass id content (fates.tail.headD .done = .done) (Frail.report result).1
      (Frail.report result).2 := by
  intro result
  have unfinished (count : Option Nat) {outcome : Option (Except StoreError Unit)}
      (unfinished : outcome ≠ some (.ok ())) :
      Ending store keyClass id content (fates.tail.headD .done = .done) outcome
        (store.left (.write (store.draftPlace keyClass id) content) count) := by
    rcases left_write legible free content count with same | ⟨part, mode, begun⟩
    · rw [same]
      exact .untouched unfinished
    · rw [begun]
      exact .drafted unfinished part mode free
  cases first : fates.headD .done with
  | failed fault count =>
      simp only [result, placeBy, perform_bind, perform_frail_failed first, Frail.report]
      exact unfinished count (by simp)
  | stopped count =>
      simp only [result, placeBy, perform_bind, perform_tryCatch, perform_frail_stopped first,
        perform_frail_still, Frail.report]
      exact unfinished count (by simp)
  | done =>
      obtain ⟨mode, begun⟩ := perform_draft legible content free
      simp only [result, placeBy, perform_bind, perform_tryCatch, perform_frail_done first, begun]
      cases second : fates.tail.headD .done with
      | done =>
          simp only [perform_frail_done second, perform_close legible]
          exact ending_rename legible free fates.tail.tail ownerOnly fun _ => rfl
      | failed fault count =>
          -- A draft that cannot be closed goes to its place all the same.
          obtain ⟨after, same⟩ := left_setMode legible id content mode count
          simp only [perform_frail_failed second, same, perform_pure]
          exact ending_rename legible free fates.tail.tail after (by simp)
      | stopped count =>
          obtain ⟨after, same⟩ := left_setMode legible id content mode count
          simp only [perform_frail_stopped second, same, perform_frail_still, Frail.report]
          exact .drafted (by simp) content after free

end Endings

theorem refused_place {store : FileStore} {keyClass : KeyClass} {id : Uuid}
    (legible : store.Legible keyClass)
    (there : store.disk.node? (store.draftPlace keyClass id) = some .directory) (content : Bytes)
    (fates : List Fate) :
    let result := perform (placeBy Frail.onDisk (store.draftPlace keyClass id)
      (store.keyPlace keyClass id) content) ⟨store, fates, true⟩
    (Frail.report result).1 ≠ some (.ok ()) ∧ (Frail.report result).2 = store := by
  intro result
  have refused (content : Bytes) :
      perform (onDisk (.write (store.draftPlace keyClass id) content)) store =
        (.error (.io .isDirectory), store) :=
    perform_write_directory legible.directory content there
  have left (count : Option Nat) :
      store.left (.write (store.draftPlace keyClass id) content) count = store := by
    cases count with
    | none => rfl
    | some count => exact congrArg Prod.snd (refused (content.take count))
  cases fate : fates.headD .done with
  | done =>
      simp only [result, placeBy, perform_bind, perform_frail_done fate, refused, Frail.report]
      exact ⟨by simp, trivial⟩
  | failed fault count =>
      simp only [result, placeBy, perform_bind, perform_frail_failed fate, left, Frail.report]
      exact ⟨by simp, trivial⟩
  | stopped count =>
      simp only [result, placeBy, perform_bind, perform_frail_stopped fate, left, perform_tryCatch,
        perform_frail_still, Frail.report]
      exact ⟨by simp, trivial⟩

variable {store : FileStore} {keyClass : KeyClass} {key : Key} {nonce : Drawn Nonce}

theorem interrupted_cases (legible : store.Legible keyClass) (fates : List Fate) :
    let result := interrupted fates keyClass key nonce store
    result.1 ≠ some (.ok ()) ∧ result.2 = store ∨
      ∃ content, encode store.masterKey key nonce = .ok content ∧
        Ending store keyClass key.id (Utf8.encode content) (fates.tail.headD .done = .done)
          result.1 result.2 := by
  intro result
  cases coded : encode store.masterKey key nonce with
  | error fault =>
      left
      have failed : result = (some (.error fault), store) := by
        simp only [result, interrupted, saveBy, coded, perform_error_bind, Frail.report, if_true]
      rw [failed]
      exact ⟨by simp, rfl⟩
  | ok content =>
      have begun : result = Frail.report (perform (placeBy Frail.onDisk
          (store.draftPlace keyClass key.id) (store.keyPlace keyClass key.id)
            (Utf8.encode content)) ⟨store, fates, true⟩) := by
        simp only [result, interrupted, saveBy, coded, perform_ok_bind]
      rw [begun]
      by_cases there : store.disk.node? (store.draftPlace keyClass key.id) = some .directory
      · exact .inl (refused_place legible there _ fates)
      · exact .inr ⟨content, rfl, ending_place legible there fates⟩

/-! ## Saving again -/

theorem save_eq_ok_iff (legible : store.Legible keyClass) {final : FileStore} :
    perform (KeyStore.save keyClass key nonce) store = (.ok (), final) ↔
      ∃ content, encode store.masterKey key nonce = .ok content ∧
        store.disk.node? (store.draftPlace keyClass key.id) ≠ some .directory ∧
        store.written keyClass key.id (.file (Utf8.encode content) ownerOnly) = final := by
  rw [save_eq_saveBy, perform_get_bind, saveBy]
  cases coded : encode store.masterKey key nonce with
  | error fault => simp
  | ok content =>
      rw [perform_ok_bind, placeBy, perform_bind]
      by_cases free : store.disk.node? (store.draftPlace keyClass key.id) = some .directory
      · have refused : perform (onDisk (.write (store.draftPlace keyClass key.id)
            (Utf8.encode content))) store = (.error (.io .isDirectory), store) :=
          perform_write_directory legible.directory _ free
        simp [refused, free]
      · obtain ⟨mode, begun⟩ := perform_draft legible (Utf8.encode content) free
        simp [begun, perform_bind, perform_tryCatch, perform_close legible, perform_place legible,
          free]

theorem withFile_written (id : Uuid) (part node : Node) :
    (store.withFile keyClass (draftName id) part).written keyClass id node =
      store.written keyClass id node := by
  rw [written, withFile_withoutFile]
  rfl

theorem written_written (id : Uuid) (before node : Node) :
    (store.written keyClass id before).written keyClass id node = store.written keyClass id node := by
  rw [written, written, withFile_withoutFile_of_ne (fileName_ne_draftName id),
    withoutFile_withoutFile, withFile_withFile]
  rfl

theorem node?_written_draft (id : Uuid) (node : Node) :
    (store.written keyClass id node).disk.node? (store.draftPlace keyClass id) = none :=
  (node?_withFile_of_ne (fileName_ne_draftName id).symm).trans
    (node?_withoutFile_self : (store.withoutFile keyClass (draftName id)).disk.node?
      (store.classDirectory keyClass ++ [draftName id]) = none)

namespace Ending

variable {content : String} {closed : Prop} {outcome : Option (Except StoreError Unit)}
  {after : FileStore} {table : KeyTable}

theorem keys_of_ne {other : KeyClass} (apart : other ≠ keyClass)
    (ending : Ending store keyClass key.id (Utf8.encode content) closed outcome after) :
    KeyStore.keys other after = KeyStore.keys other store := by
  cases ending with
  | untouched unfinished => rfl
  | drafted unfinished part mode free => exact keys_withFile_of_ne apart
  | placed mode isClosed free =>
      exact (keys_withFile_of_ne apart).trans (keys_withoutFile_of_ne apart)

theorem listed (coded : encode store.masterKey key nonce = .ok content)
    (listed : KeyStore.keys keyClass store = .ok table) (placed : store.Placed keyClass key.id)
    (ending : Ending store keyClass key.id (Utf8.encode content) closed outcome after) :
    outcome ≠ some (.ok ()) ∧ KeyStore.keys keyClass after = .ok table ∧
        after.disk.node? (store.keyPlace keyClass key.id) =
          store.disk.node? (store.keyPlace keyClass key.id) ∨
      KeyStore.keys keyClass after = .ok (table.insert key) ∧
        ∃ mode, after.disk.node? (store.keyPlace keyClass key.id) =
          some (.file (Utf8.encode content) mode) ∧ (closed → mode = ownerOnly) := by
  have foreign := extension?_draft key.id
  cases ending with
  | untouched unfinished => exact .inl ⟨unfinished, listed, rfl⟩
  | drafted unfinished part mode free =>
      exact .inl ⟨unfinished, keys_withFile_of_foreign listed foreign,
        node?_withFile_of_ne (fileName_ne_draftName key.id)⟩
  | placed mode isClosed free =>
      have dropped : KeyStore.keys keyClass (store.withoutFile keyClass (draftName key.id)) =
          .ok table := keys_withoutFile_of_foreign listed foreign
      exact .inr ⟨keys_withFile_of_record dropped placed.withoutFile coded, mode,
        node?_withFile_self, isClosed⟩

theorem save_eq_ok_iff {final : FileStore} (legible : store.Legible keyClass)
    (left : after.Legible keyClass) (nonce : Drawn Nonce)
    (ending : Ending store keyClass key.id (Utf8.encode content) closed outcome after) :
    perform (KeyStore.save keyClass key nonce) after = (.ok (), final) ↔
      perform (KeyStore.save keyClass key nonce) store = (.ok (), final) := by
  rw [FileStore.save_eq_ok_iff legible, FileStore.save_eq_ok_iff left]
  cases ending with
  | untouched unfinished => rfl
  | drafted unfinished part mode free =>
      have isFile : (store.withFile keyClass (draftName key.id) (.file part mode)).disk.node?
          (store.draftPlace keyClass key.id) = some (.file part mode) := node?_withFile_self
      refine exists_congr fun content => and_congr Iff.rfl (and_congr (iff_of_true ?_ free) ?_)
      · exact fun directory => nomatch isFile.symm.trans directory
      · rw [withFile_written]
  | placed mode isClosed free =>
      have gone := @node?_written_draft store keyClass key.id (.file (Utf8.encode content) mode)
      refine exists_congr fun content => and_congr Iff.rfl (and_congr (iff_of_true ?_ free) ?_)
      · exact fun directory => nomatch gone.symm.trans directory
      · rw [written_written]

end Ending

/-- A save that fails, or during which the machine stops, has put its record in its place or has
changed nothing that is listed. When the key is saved the next time, it is as if the save had not been
interrupted. -/
theorem interrupted_save_atomic {after : FileStore} {table : KeyTable} {fates : List Fate}
    {outcome : Option (Except StoreError Unit)}
    (listed : KeyStore.keys keyClass store = .ok table) (placed : ∀ id, store.Placed keyClass id)
    (ended : interrupted fates keyClass key nonce store = (outcome, after)) :
    (outcome ≠ some (.ok ()) ∧ KeyStore.keys keyClass after = .ok table ∧
        after.disk.node? (store.keyPlace keyClass key.id) =
          store.disk.node? (store.keyPlace keyClass key.id) ∨
      KeyStore.keys keyClass after = .ok (table.insert key) ∧
        ∃ content mode, encode store.masterKey key nonce = .ok content ∧
          after.disk.node? (store.keyPlace keyClass key.id) =
            some (.file (Utf8.encode content) mode) ∧
          (fates.tail.headD .done = .done → mode = ownerOnly)) ∧
    (∀ other, other ≠ keyClass → KeyStore.keys other after = KeyStore.keys other store) ∧
    ∀ nonce' final, perform (KeyStore.save keyClass key nonce') after = (.ok (), final) ↔
      perform (KeyStore.save keyClass key nonce') store = (.ok (), final) := by
  have legible := (keys_eq_ok_iff.1 listed).1
  have cases := @interrupted_cases store keyClass key nonce legible fates
  simp only [ended] at cases
  rcases cases with ⟨unfinished, rfl⟩ | ⟨content, coded, ending⟩
  · exact ⟨.inl ⟨unfinished, listed, rfl⟩, fun _ _ => rfl, fun _ _ => Iff.rfl⟩
  · obtain ⟨unfinished, relisted, same⟩ | ⟨relisted, mode, there, isClosed⟩ :=
      ending.listed coded listed (placed key.id)
    · exact ⟨.inl ⟨unfinished, relisted, same⟩, fun other apart => ending.keys_of_ne apart,
        fun nonce' final => ending.save_eq_ok_iff legible (keys_eq_ok_iff.1 relisted).1 nonce'⟩
    · exact ⟨.inr ⟨relisted, content, mode, coded, there, isClosed⟩,
        fun other apart => ending.keys_of_ne apart,
        fun nonce' final => ending.save_eq_ok_iff legible (keys_eq_ok_iff.1 relisted).1 nonce'⟩

theorem save_stopped_in_draft : ∃ content,
    encode blank.masterKey emptyKey (.ok zeroNonce) = .ok content ∧
      let store := blank.withFile .encryption (fileName emptyKey.id)
        (.file (Utf8.encode content) ownerOnly)
      let key : Key := { emptyKey with secret := [7] }
      let after := (interrupted [.stopped (some 5)] .encryption key (.ok zeroNonce) store).2
      KeyStore.keys .encryption store = .ok [emptyKey] ∧
        (∀ id, store.Placed .encryption id) ∧
        interrupted [.stopped (some 5)] .encryption key (.ok zeroNonce) store = (none, after) ∧
        (KeyStore.keys .encryption after = .ok [emptyKey] ∨
          KeyStore.keys .encryption after = .ok [key]) ∧
        KeyStore.keys .signing after = KeyStore.keys .signing store ∧
        ∀ nonce final, perform (KeyStore.save .encryption key nonce) after = (.ok (), final) ↔
          perform (KeyStore.save .encryption key nonce) store = (.ok (), final) := by
  have short : emptyKey.secret.length ≤ Gcm.maxTextLength := Nat.zero_le _
  obtain ⟨content, written⟩ := blank.exists_encode short zeroNonce
  refine ⟨content, written, ?_⟩
  intro store key after
  have listed : KeyStore.keys .encryption store = .ok [emptyKey] :=
    keys_blank_withFile (extension?_fileName _) written
  have placed (id : Uuid) : store.Placed .encryption id := placed_blank_withFile written id
  have ended : interrupted [.stopped (some 5)] .encryption key (.ok zeroNonce) store =
      (none, after) := by
    obtain ⟨record, coded⟩ := store.exists_encode (by decide : key.secret.length ≤ _) zeroNonce
    refine Prod.ext ?_ rfl
    rw [interrupted, saveBy, coded, perform_ok_bind]
    simp only [placeBy, perform_bind, perform_tryCatch,
      perform_frail_stopped (show List.headD [.stopped (some 5)] .done = .stopped (some 5) from rfl),
      Frail.report]
    rfl
  obtain ⟨⟨-, same, -⟩ | ⟨inserted, -⟩, others, again⟩ := interrupted_save_atomic listed placed ended
  · exact ⟨listed, placed, ended, .inl same, others .signing (by decide), again⟩
  · exact ⟨listed, placed, ended, .inr inserted, others .signing (by decide), again⟩

end Bearer.FileStore
