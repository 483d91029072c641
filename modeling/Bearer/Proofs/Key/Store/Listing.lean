import Bearer.Key.Store.Files
import Bearer.Proofs.Base64Url
import Bearer.Proofs.Crypto.Seal
import Bearer.Proofs.FileSystem
import Bearer.Proofs.Key.Record
import Bearer.Proofs.Key.Store
import Mathlib.Data.List.Basic
import Mathlib.Data.List.TakeDrop

namespace Bearer.FileStore

open FileSystem KeyStore

/-! ## Records -/

theorem decode_encode {masterKey : Bytes} {key : Key} {nonce : Drawn Nonce} {content : String}
    (written : encode masterKey key nonce = .ok content) : decode masterKey content = .ok key := by
  simp only [encode, bind_eq_ok, mapError_eq_ok, pure_eq_ok] at written
  obtain ⟨sealed, done, rfl⟩ := written
  simp only [decode, KeyRecord.read_text, mapError_ok, ok_bind, Base64Url.decode_eq_ok_iff.2 rfl,
    openSealed_of_sealText done]
  rfl

theorem exists_encode (store : FileStore) {key : Key}
    (short : key.secret.length ≤ Gcm.maxTextLength) (nonce : Nonce) :
    ∃ content, encode store.masterKey key (.ok nonce) = .ok content := by
  obtain ⟨sealed, sealing⟩ := exists_sealText store.length_masterKey short nonce
  rw [encode, sealing]
  exact ⟨_, rfl⟩

/-! ## Names -/

def recordSuffix : Option (List Char) := some "json".toList

theorem extension?_eq {name : String} (front : List Char) {behind : List Char} (filled : front ≠ [])
    (noPoint : '.' ∉ behind) (parts : name.toList = front ++ '.' :: behind) :
    extension? name = some behind := by
  have reversed : name.toList.reverse = behind.reverse ++ '.' :: front.reverse := by
    simp [parts]
  have noPoint' : ∀ c ∈ behind.reverse, (c != '.') = true := by
    intro c member
    rw [bne_iff_ne]
    rintro rfl
    exact noPoint (List.mem_reverse.1 member)
  have cut : name.toList.reverse.span (· != '.') = (behind.reverse, '.' :: front.reverse) := by
    rw [List.span_eq_takeWhile_dropWhile, reversed, List.takeWhile_append_of_pos noPoint',
      List.dropWhile_append_of_pos noPoint', List.takeWhile_cons_of_neg (by simp),
      List.dropWhile_cons_of_neg (by simp), List.append_nil]
  rw [extension?, cut]
  cases turned : front.reverse with
  | nil => exact absurd (List.reverse_eq_nil_iff.1 turned) filled
  | cons c rest => simp

theorem extension?_fileName (id : Uuid) : extension? (fileName id) = recordSuffix := by
  refine extension?_eq id.text.toList ?_ (by decide) ?_
  · rw [Uuid.text, String.toList_ofList, Uuid.chars]
    simp
  · rw [fileName, String.toList_append]
    rfl

theorem extension?_draft (id : Uuid) : extension? (fileName id ++ ".tmp") ≠ recordSuffix := by
  have suffix : extension? (fileName id ++ ".tmp") = some "tmp".toList := by
    refine extension?_eq (fileName id).toList ?_ (by decide) ?_
    · rw [fileName, String.toList_append]
      simp
    · rw [String.toList_append]
      rfl
  rw [suffix]
  decide

theorem fileName_injective : Function.Injective fileName := by
  intro left right equal
  have texts := congrArg String.toList equal
  simp only [fileName, String.toList_append, List.append_cancel_right_eq] at texts
  exact Uuid.text_injective (String.toList_injective texts)

/-! ## Places -/

theorem name_injective {left right : KeyClass} (same : left.name = right.name) : left = right := by
  revert same
  cases left <;> cases right <;> decide

theorem place_eq_iff {store : FileStore} {left right : KeyClass} {name other : String} :
    store.classDirectory left ++ [name] = store.classDirectory right ++ [other] ↔
      left = right ∧ name = other := by
  constructor
  · intro same
    obtain ⟨directories, names⟩ := List.append_inj' same rfl
    obtain ⟨-, classes⟩ := List.append_inj' directories rfl
    exact ⟨name_injective (List.singleton_inj.1 classes), List.singleton_inj.1 names⟩
  · rintro ⟨rfl, rfl⟩
    rfl

theorem draftPlace_ne_nil (store : FileStore) (keyClass : KeyClass) (id : Uuid) :
    store.draftPlace keyClass id ≠ [] := by
  simp [draftPlace]

theorem keyPlace_ne_nil (store : FileStore) (keyClass : KeyClass) (id : Uuid) :
    store.keyPlace keyClass id ≠ [] := by
  simp [keyPlace]

theorem ne_draftPlace {store : FileStore} (left right : KeyClass) {name : String} (id : Uuid)
    (byName : extension? name = recordSuffix) :
    store.classDirectory left ++ [name] ≠ store.draftPlace right id := by
  intro same
  obtain ⟨-, rfl⟩ := place_eq_iff.1 same
  exact extension?_draft id byName

theorem ne_of_shallow {store : FileStore} {keyClass : KeyClass} {name : String} {place : Location}
    (shallow : place.length ≤ (store.disk.locate store.base).length + 1) :
    place ≠ store.classDirectory keyClass ++ [name] := by
  rintro rfl
  simp [classDirectory, FileStore.directory] at shallow

theorem length_classDirectory (store : FileStore) (keyClass : KeyClass) :
    (store.classDirectory keyClass).length = (store.disk.locate store.base).length + 1 := by
  simp [classDirectory, FileStore.directory]

def withDisk (store : FileStore) (disk : FileSystem) : FileStore := { store with disk }

theorem classDirectory_withDisk (store : FileStore) {disk : FileSystem}
    (workDir : disk.workDir = store.disk.workDir) (keyClass : KeyClass) :
    (store.withDisk disk).classDirectory keyClass = store.classDirectory keyClass := by
  simp only [classDirectory, FileStore.directory, withDisk, locate, origin, workDir]

/-! ## Entries -/

def entry (store : FileStore) (keyClass : KeyClass) (name : String) : Option Key :=
  if extension? name = recordSuffix then
    match store.disk.node? (store.classDirectory keyClass ++ [name]) with
    | some (.file content _) =>
        (Utf8.decode? content).bind fun text => (decode store.masterKey text).toOption
    | _ => none
  else none

theorem entry_of_record {store : FileStore} {keyClass : KeyClass} {name : String} {key : Key}
    {nonce : Drawn Nonce} {content : String} {mode : Nat} (byName : extension? name = recordSuffix)
    (written : encode store.masterKey key nonce = .ok content)
    (found : store.disk.node? (store.classDirectory keyClass ++ [name]) =
      some (.file (Utf8.encode content) mode)) : store.entry keyClass name = some key := by
  rw [entry, if_pos byName, found]
  simp only [Utf8.decode?_encode, Option.bind_some, decode_encode written]
  rfl

theorem entry_of_absent {store : FileStore} {keyClass : KeyClass} {name : String}
    (absent : store.disk.node? (store.classDirectory keyClass ++ [name]) = none) :
    store.entry keyClass name = none := by
  rw [entry, absent]
  split <;> rfl

theorem entry_of_foreign {store : FileStore} {keyClass : KeyClass} {name : String}
    (foreign : extension? name ≠ recordSuffix) : store.entry keyClass name = none :=
  if_neg foreign

theorem entry_withDisk {store : FileStore} {disk : FileSystem} {keyClass : KeyClass} {name : String}
    (workDir : disk.workDir = store.disk.workDir)
    (same : extension? name = recordSuffix →
      disk.node? (store.classDirectory keyClass ++ [name]) =
        store.disk.node? (store.classDirectory keyClass ++ [name])) :
    (store.withDisk disk).entry keyClass name = store.entry keyClass name := by
  by_cases byName : extension? name = recordSuffix
  · rw [entry, entry, if_pos byName, if_pos byName, classDirectory_withDisk store workDir,
      ← same byName]
    rfl
  · rw [entry, entry, if_neg byName, if_neg byName]

theorem reach_below {store : FileStore} {keyClass : KeyClass}
    (directory : store.disk.find (store.classDirectory keyClass) = .ok .directory) (name : String) :
    store.disk.reach [] (store.classDirectory keyClass ++ [name]).dropLast = .ok () := by
  rw [List.dropLast_concat]
  exact reach_directory directory

theorem readKey_eq_ok_iff {store : FileStore} {keyClass : KeyClass} {name : String} {key : Key}
    (directory : store.disk.find (store.classDirectory keyClass) = .ok .directory)
    (byName : extension? name = recordSuffix) :
    store.readKey (store.classDirectory keyClass ++ [name]) = .ok key ↔
      store.entry keyClass name = some key := by
  rw [entry, if_pos byName, readKey, readText, FileSystem.read, FileSystem.find,
    reach_below directory name, ok_bind]
  cases store.disk.node? (store.classDirectory keyClass ++ [name]) with
  | none => simp
  | some node =>
      cases node with
      | directory => simp [pure, Except.pure]
      | file content mode =>
          simp only [pure_eq_ok.2 rfl, ok_bind]
          cases Utf8.decode? content with
          | none => simp
          | some text =>
              simp only [ok_bind, mapError_ok, Option.bind_some]
              cases decode store.masterKey text <;> simp [Except.toOption]

theorem readEntry_eq_ok_iff {store : FileStore} {keyClass : KeyClass} {name : String}
    {found : Option Key}
    (directory : store.disk.find (store.classDirectory keyClass) = .ok .directory) :
    store.readEntry (store.classDirectory keyClass) name = .ok found ↔
      store.entry keyClass name = found ∧ (extension? name = recordSuffix → found.isSome = true) := by
  by_cases byName : extension? name = recordSuffix
  · have json : extension? name = some "json".toList := byName
    rw [FileStore.readEntry, if_pos json]
    cases found with
    | none =>
        cases store.readKey (store.classDirectory keyClass ++ [name]) <;> simp [byName, Except.map]
    | some key =>
        rw [← readKey_eq_ok_iff directory byName]
        cases store.readKey (store.classDirectory keyClass ++ [name]) <;> simp [Except.map]
  · have other : ¬extension? name = some "json".toList := byName
    rw [FileStore.readEntry, if_neg other, entry_of_foreign byName, Except.ok.injEq]
    simp [byName]

/-! ## Listings -/

def contents (store : FileStore) (keyClass : KeyClass) : List Key :=
  (store.disk.namesIn (store.classDirectory keyClass)).filterMap (store.entry keyClass)

structure Legible (store : FileStore) (keyClass : KeyClass) : Prop where
  directory : store.disk.find (store.classDirectory keyClass) = .ok .directory
  records {name : String} (byName : extension? name = recordSuffix)
    (listed : (store.disk.node? (store.classDirectory keyClass ++ [name])).isSome = true) :
    (store.entry keyClass name).isSome = true

theorem keys_eq_ok_iff {store : FileStore} {keyClass : KeyClass} {table : KeyTable} :
    KeyStore.keys keyClass store = .ok table ↔
      store.Legible keyClass ∧ KeyTable.ofList (store.contents keyClass) = table := by
  change FileStore.keys keyClass store = _ ↔ _
  have entries (legible : store.Legible keyClass) :
      (store.disk.namesIn (store.classDirectory keyClass)).mapM
        (store.readEntry (store.classDirectory keyClass)) =
      .ok ((store.disk.namesIn (store.classDirectory keyClass)).map (store.entry keyClass)) :=
    mapM_eq_ok fun name member => (readEntry_eq_ok_iff legible.directory).2
      ⟨rfl, fun byName => legible.records byName (mem_namesIn.1 member)⟩
  have legible_of_ok {values : List (Option Key)}
      (directory : store.disk.find (store.classDirectory keyClass) = .ok .directory)
      (done : (store.disk.namesIn (store.classDirectory keyClass)).mapM
        (store.readEntry (store.classDirectory keyClass)) = .ok values) : store.Legible keyClass := by
    refine ⟨directory, fun {name} byName listed => ?_⟩
    obtain ⟨found, read⟩ := ok_of_mapM done name (mem_namesIn.2 listed)
    obtain ⟨rfl, some⟩ := (readEntry_eq_ok_iff directory).1 read
    exact some byName
  rw [FileStore.keys, bind_eq_ok]
  constructor
  · rintro ⟨names, listed, read⟩
    obtain ⟨directory, rfl⟩ := list_eq_ok_iff.1 (mapError_eq_ok.1 listed)
    obtain ⟨values, done, made⟩ := bind_eq_ok.1 read
    have legible := legible_of_ok directory done
    obtain rfl := Except.ok.inj ((entries legible).symm.trans done)
    rw [List.filterMap_map, Function.id_comp] at made
    exact ⟨legible, pure_eq_ok.1 made⟩
  · rintro ⟨legible, rfl⟩
    refine ⟨_, mapError_eq_ok.2 (list_eq_ok_iff.2 ⟨legible.directory, rfl⟩), ?_⟩
    rw [entries legible, ok_bind, List.filterMap_map, Function.id_comp]
    rfl

theorem Legible.file {store : FileStore} {keyClass : KeyClass} (legible : store.Legible keyClass)
    {name : String} (byName : extension? name = recordSuffix)
    (there : store.disk.pathExists (store.classDirectory keyClass ++ [name]) = true) :
    ∃ content mode,
      store.disk.find (store.classDirectory keyClass ++ [name]) = .ok (.file content mode) := by
  have readable := legible.records byName there
  obtain ⟨node, found⟩ := Option.isSome_iff_exists.1 there
  cases node with
  | file content mode =>
      exact ⟨content, mode, find_eq_ok_iff.2 ⟨reach_below legible.directory name, found⟩⟩
  | directory => simp [entry, byName, found] at readable

theorem Legible.key {store : FileStore} {keyClass : KeyClass} (legible : store.Legible keyClass)
    (id : Uuid) : KeyStore.key keyClass id store =
      (store.entry keyClass (fileName id)).elim (.error (.notFound id)) .ok := by
  change FileStore.key keyClass id store = _
  rw [FileStore.key]
  split
  · next there =>
      obtain ⟨key, found⟩ :=
        Option.isSome_iff_exists.1 (legible.records (extension?_fileName id) there)
      rw [found]
      exact (readKey_eq_ok_iff legible.directory (extension?_fileName id)).2 found
  · next missing =>
      rw [entry_of_absent (by simpa [pathExists, keyPlace] using missing)]
      rfl

/-- The file named after an identifier, and no other, records it. -/
def Placed (store : FileStore) (keyClass : KeyClass) (id : Uuid) : Prop :=
  ∀ name key, store.entry keyClass name = some key →
    (name = fileName id ↔ key.id = id)

theorem mem_contents {store : FileStore} {keyClass : KeyClass} {key : Key} :
    key ∈ store.contents keyClass ↔ ∃ name, store.entry keyClass name = some key := by
  rw [contents, List.mem_filterMap]
  refine exists_congr fun name => and_iff_right_of_imp fun found => mem_namesIn.2 ?_
  cases there : store.disk.node? (store.classDirectory keyClass ++ [name]) with
  | none => simp [entry_of_absent there] at found
  | some node => rfl

theorem Placed.find?_contents {store : FileStore} {keyClass : KeyClass} {id : Uuid}
    (placed : store.Placed keyClass id) :
    (KeyTable.ofList (store.contents keyClass)).find? id = store.entry keyClass (fileName id) := by
  apply KeyTable.find?_ofList
  · intro key inside isId
    obtain ⟨name, found⟩ := mem_contents.1 inside
    obtain rfl := (placed _ _ found).2 isId
    exact found.symm
  · cases found : store.entry keyClass (fileName id) with
    | none => exact .inl rfl
    | some key => exact .inr ⟨key, mem_contents.2 ⟨_, found⟩, (placed _ _ found).1 rfl⟩

/-! ## Changes in one directory -/

structure Within (store : FileStore) (keyClass : KeyClass) (disk : FileSystem) : Prop where
  workDir : disk.workDir = store.disk.workDir
  node? (place : Location) (outside : ∀ name, place ≠ store.classDirectory keyClass ++ [name]) :
    disk.node? place = store.disk.node? place
  namesIn (place : Location) (other : place ≠ store.classDirectory keyClass) :
    disk.namesIn place = store.disk.namesIn place

namespace Within

variable {store : FileStore} {keyClass : KeyClass} {disk : FileSystem}

theorem refl (store : FileStore) (keyClass : KeyClass) : store.Within keyClass store.disk :=
  ⟨rfl, fun _ _ => rfl, fun _ _ => rfl⟩

theorem put (within : store.Within keyClass disk) (name : String) (node : Node) :
    store.Within keyClass (disk.put (store.classDirectory keyClass ++ [name]) node) where
  workDir := within.workDir
  node? place outside := by
    rw [node?_put _ (by simp), if_neg (outside name), within.node? place outside]
  namesIn place other := by rw [namesIn_put, if_neg other, within.namesIn place other]

theorem drop (within : store.Within keyClass disk) (name : String) :
    store.Within keyClass (disk.drop (store.classDirectory keyClass ++ [name])) where
  workDir := within.workDir
  node? place outside := by
    rw [node?_drop _ (by simp), if_neg (outside name), within.node? place outside]
  namesIn place other := by rw [namesIn_drop, if_neg other, within.namesIn place other]

theorem classDirectory (within : store.Within keyClass disk) (other : KeyClass) :
    (store.withDisk disk).classDirectory other = store.classDirectory other :=
  classDirectory_withDisk store within.workDir other

theorem shallow (within : store.Within keyClass disk) {place : Location}
    (short : place.length ≤ (store.disk.locate store.base).length + 1) :
    disk.node? place = store.disk.node? place :=
  within.node? place fun _ => ne_of_shallow short

theorem find_directory (within : store.Within keyClass disk) (other : KeyClass) :
    disk.find (store.classDirectory other) = store.disk.find (store.classDirectory other) := by
  refine find_congr (fun place short => within.shallow ?_) (within.shallow ?_)
  · exact (Nat.le_of_lt short).trans_eq (store.length_classDirectory other)
  · exact Nat.le_of_eq (store.length_classDirectory other)

theorem keys_of_ne (within : store.Within keyClass disk) {other : KeyClass} (apart : other ≠ keyClass) :
    KeyStore.keys other (store.withDisk disk) = KeyStore.keys other store := by
  have outside (name : String) : disk.find (store.classDirectory other ++ [name]) =
      store.disk.find (store.classDirectory other ++ [name]) := by
    refine find_congr (fun place short => within.shallow ?_) ?_
    · rw [List.length_append, List.length_singleton, store.length_classDirectory other] at short
      omega
    · exact within.node? _ fun _ same => apart (place_eq_iff.1 same).1
  have listed : disk.list (store.classDirectory other) =
      store.disk.list (store.classDirectory other) := by
    refine list_congr (within.find_directory other) (within.namesIn _ fun same => apart ?_)
    exact (place_eq_iff.1 (congrArg (· ++ [""]) same)).1
  have entries : (store.withDisk disk).readEntry (store.classDirectory other) =
      store.readEntry (store.classDirectory other) := by
    funext name
    simp only [FileStore.readEntry, readKey, readText, FileSystem.read, withDisk, outside]
  change FileStore.keys other _ = FileStore.keys other _
  rw [FileStore.keys, FileStore.keys, within.classDirectory other, entries,
    show (store.withDisk disk).disk = disk from rfl, listed]

end Within

/-! ## One file more or less -/

section Change

variable {store : FileStore} {keyClass : KeyClass}

def otherContents (store : FileStore) (keyClass : KeyClass) (name : String) : List Key :=
  ((store.disk.namesIn (store.classDirectory keyClass)).filter (· != name)).filterMap
    (store.entry keyClass)

theorem otherContents_of_foreign {name : String} (foreign : extension? name ≠ recordSuffix) :
    store.otherContents keyClass name = store.contents keyClass := by
  rw [otherContents, contents, List.filterMap_filter]
  refine List.filterMap_congr fun other _ => ?_
  by_cases same : other = name
  · rw [same, entry_of_foreign foreign, ite_self]
  · rw [if_pos (by simpa using same)]

theorem Placed.otherContents {id : Uuid} (placed : store.Placed keyClass id) :
    store.otherContents keyClass (fileName id) =
      (store.contents keyClass).filter fun key => key.id != id := by
  rw [FileStore.otherContents, contents, List.filterMap_filter, List.filter_filterMap]
  refine List.filterMap_congr fun name _ => ?_
  cases found : store.entry keyClass name with
  | none => simp
  | some key =>
      by_cases same : name = fileName id
      · simp [same, (placed _ _ found).1 same, Option.filter]
      · simp [same, mt (placed _ _ found).2 same, Option.filter]

def withFile (store : FileStore) (keyClass : KeyClass) (name : String) (node : Node) : FileStore :=
  store.withDisk (store.disk.put (store.classDirectory keyClass ++ [name]) node)

def withoutFile (store : FileStore) (keyClass : KeyClass) (name : String) : FileStore :=
  store.withDisk (store.disk.drop (store.classDirectory keyClass ++ [name]))

variable {name : String} {node : Node}

theorem withFile_classDirectory (other : KeyClass) :
    (store.withFile keyClass name node).classDirectory other = store.classDirectory other := rfl

theorem withoutFile_classDirectory (other : KeyClass) :
    (store.withoutFile keyClass name).classDirectory other = store.classDirectory other := rfl

theorem withFile_withFile {other : Node} :
    (store.withFile keyClass name node).withFile keyClass name other =
      store.withFile keyClass name other :=
  congrArg store.withDisk (put_put _ _ _ _)

theorem withFile_withoutFile :
    (store.withFile keyClass name node).withoutFile keyClass name = store.withoutFile keyClass name :=
  congrArg store.withDisk (drop_put _ _ _)

theorem withoutFile_withoutFile :
    (store.withoutFile keyClass name).withoutFile keyClass name = store.withoutFile keyClass name :=
  congrArg store.withDisk (drop_drop _ _)

theorem withFile_withoutFile_of_ne {other : String} (apart : name ≠ other) :
    (store.withFile keyClass name node).withoutFile keyClass other =
      (store.withoutFile keyClass other).withFile keyClass name node :=
  congrArg store.withDisk (drop_put_of_ne _ (fun same => apart (place_eq_iff.1 same).2) _)

theorem node?_withFile_self : (store.withFile keyClass name node).disk.node?
    (store.classDirectory keyClass ++ [name]) = some node :=
  (node?_put _ (by simp) _ _).trans (if_pos rfl)

theorem node?_withFile_of_ne {other : String} (apart : other ≠ name) :
    (store.withFile keyClass name node).disk.node? (store.classDirectory keyClass ++ [other]) =
      store.disk.node? (store.classDirectory keyClass ++ [other]) :=
  (node?_put _ (by simp) _ _).trans (if_neg fun same => apart (place_eq_iff.1 same).2)

theorem node?_withoutFile_self : (store.withoutFile keyClass name).disk.node?
    (store.classDirectory keyClass ++ [name]) = none :=
  (node?_drop _ (by simp) _).trans (if_pos rfl)

theorem node?_withoutFile_of_ne {other : String} (apart : other ≠ name) :
    (store.withoutFile keyClass name).disk.node? (store.classDirectory keyClass ++ [other]) =
      store.disk.node? (store.classDirectory keyClass ++ [other]) :=
  (node?_drop _ (by simp) _).trans (if_neg fun same => apart (place_eq_iff.1 same).2)

theorem entry_withFile_of_ne {other : String} (apart : other ≠ name) :
    (store.withFile keyClass name node).entry keyClass other = store.entry keyClass other :=
  entry_withDisk rfl fun _ => node?_withFile_of_ne apart

theorem entry_withoutFile_of_ne {other : String} (apart : other ≠ name) :
    (store.withoutFile keyClass name).entry keyClass other = store.entry keyClass other :=
  entry_withDisk rfl fun _ => node?_withoutFile_of_ne apart

theorem entry_withFile_of_record {key : Key} {nonce : Drawn Nonce} {content : String} {mode : Nat}
    (byName : extension? name = recordSuffix)
    (written : encode store.masterKey key nonce = .ok content) :
    (store.withFile keyClass name (.file (Utf8.encode content) mode)).entry keyClass name = some key :=
  entry_of_record byName written node?_withFile_self

theorem contents_withFile : (store.withFile keyClass name node).contents keyClass =
    store.otherContents keyClass name ++
      ((store.withFile keyClass name node).entry keyClass name).toList := by
  have names : (store.withFile keyClass name node).disk.namesIn (store.classDirectory keyClass) =
      (store.disk.namesIn (store.classDirectory keyClass)).filter (· != name) ++ [name] :=
    (namesIn_put _ _ _ _ _).trans (if_pos rfl)
  have others : ((store.disk.namesIn (store.classDirectory keyClass)).filter (· != name)).filterMap
      ((store.withFile keyClass name node).entry keyClass) =
        store.otherContents keyClass name :=
    List.filterMap_congr fun other inside =>
      entry_withFile_of_ne (by simpa using (List.mem_filter.1 inside).2)
  rw [contents, withFile_classDirectory, names, List.filterMap_append, others]
  cases found : (store.withFile keyClass name node).entry keyClass name <;> simp [found]

theorem contents_withoutFile : (store.withoutFile keyClass name).contents keyClass =
    store.otherContents keyClass name := by
  have names : (store.withoutFile keyClass name).disk.namesIn (store.classDirectory keyClass) =
      (store.disk.namesIn (store.classDirectory keyClass)).filter (· != name) :=
    (namesIn_drop _ _ _ _).trans (if_pos rfl)
  rw [contents, withoutFile_classDirectory, names]
  exact List.filterMap_congr fun other inside =>
    entry_withoutFile_of_ne (by simpa using (List.mem_filter.1 inside).2)

theorem Legible.withFile (legible : store.Legible keyClass)
    (readable : extension? name = recordSuffix →
      ((store.withFile keyClass name node).entry keyClass name).isSome = true) :
    (store.withFile keyClass name node).Legible keyClass where
  directory := (((Within.refl store keyClass).put name node).find_directory keyClass).trans
    legible.directory
  records {other} byName listed := by
    by_cases same : other = name
    · exact same ▸ readable (same ▸ byName)
    · rw [entry_withFile_of_ne same]
      rw [withFile_classDirectory, node?_withFile_of_ne same] at listed
      exact legible.records byName listed

theorem Legible.withoutFile (legible : store.Legible keyClass) :
    (store.withoutFile keyClass name).Legible keyClass where
  directory := (((Within.refl store keyClass).drop name).find_directory keyClass).trans
    legible.directory
  records {other} byName listed := by
    rw [withoutFile_classDirectory] at listed
    by_cases same : other = name
    · rw [same, node?_withoutFile_self] at listed
      cases listed
    · rw [entry_withoutFile_of_ne same]
      rw [node?_withoutFile_of_ne same] at listed
      exact legible.records byName listed

theorem Placed.withoutFile {id : Uuid} (placed : store.Placed keyClass id) :
    (store.withoutFile keyClass name).Placed keyClass id := by
  intro other key found
  by_cases same : other = name
  · rw [same, entry_of_absent node?_withoutFile_self] at found
    cases found
  · exact placed _ _ (entry_withoutFile_of_ne same ▸ found)

/-! ## What one file makes of a listing -/

theorem keys_withFile_of_ne {other : KeyClass} (apart : other ≠ keyClass) :
    KeyStore.keys other (store.withFile keyClass name node) = KeyStore.keys other store :=
  ((Within.refl store keyClass).put name node).keys_of_ne apart

theorem keys_withoutFile_of_ne {other : KeyClass} (apart : other ≠ keyClass) :
    KeyStore.keys other (store.withoutFile keyClass name) = KeyStore.keys other store :=
  ((Within.refl store keyClass).drop name).keys_of_ne apart

variable {table : KeyTable} (listed : KeyStore.keys keyClass store = .ok table)
include listed

theorem keys_withFile_of_foreign (foreign : extension? name ≠ recordSuffix) :
    KeyStore.keys keyClass (store.withFile keyClass name node) = .ok table := by
  obtain ⟨legible, rfl⟩ := keys_eq_ok_iff.1 listed
  refine keys_eq_ok_iff.2 ⟨legible.withFile fun byName => absurd byName foreign, ?_⟩
  rw [contents_withFile, entry_of_foreign foreign, otherContents_of_foreign foreign,
    Option.toList_none, List.append_nil]

theorem keys_withoutFile_of_foreign (foreign : extension? name ≠ recordSuffix) :
    KeyStore.keys keyClass (store.withoutFile keyClass name) = .ok table := by
  obtain ⟨legible, rfl⟩ := keys_eq_ok_iff.1 listed
  refine keys_eq_ok_iff.2 ⟨legible.withoutFile, ?_⟩
  rw [contents_withoutFile, otherContents_of_foreign foreign]

theorem keys_withFile_of_record {key : Key} {nonce : Drawn Nonce} {content : String} {mode : Nat}
    (placed : store.Placed keyClass key.id)
    (written : encode store.masterKey key nonce = .ok content) :
    KeyStore.keys keyClass
      (store.withFile keyClass (fileName key.id) (.file (Utf8.encode content) mode)) =
        .ok (table.insert key) := by
  obtain ⟨legible, rfl⟩ := keys_eq_ok_iff.1 listed
  have there := @entry_withFile_of_record store keyClass _ key nonce content mode
    (extension?_fileName key.id) written
  refine keys_eq_ok_iff.2 ⟨legible.withFile fun _ => by rw [there]; rfl, ?_⟩
  rw [contents_withFile, there, placed.otherContents, Option.toList_some,
    KeyTable.ofList_concat, ← KeyTable.erase_ofList, KeyTable.insert_erase]

theorem keys_withoutFile_of_record {id : Uuid} (placed : store.Placed keyClass id) :
    KeyStore.keys keyClass (store.withoutFile keyClass (fileName id)) =
      .ok (table.erase id) := by
  obtain ⟨legible, rfl⟩ := keys_eq_ok_iff.1 listed
  refine keys_eq_ok_iff.2 ⟨legible.withoutFile, ?_⟩
  rw [contents_withoutFile, placed.otherContents, KeyTable.erase_ofList]

end Change

end Bearer.FileStore
