import Bearer.Proofs.Key.Store.Files
/-!
# One key and all keys

A listing goes by the identifiers that records tell, a search for one key and its removal by the names
of files. Nothing compares the two, so they fall apart where a record lies in a file that is named
otherwise (`moved_record_out_of_reach`).

* `Agrees`: what is listed under an identifier is what is found and removed under it.
* `agrees_of_placed`: it is so where the file named after the identifier, and no other, records it.
* `Agrees.placed`: for encryption keys it is so nowhere else.
-/

namespace Bearer.FileStore

open FileSystem KeyStore

/-- A listing tells of an identifier what a search for it finds, and what its removal leaves. -/
structure Agrees (store : FileStore) (keyClass : KeyClass) (id : Uuid) (table : KeyTable) : Prop where
  found (key : Key) : KeyStore.key keyClass id store = .ok key ↔ table.find? id = some key
  missing (absent : table.find? id = none) :
    KeyStore.key keyClass id store = .error (.notFound id)
  own (key : Key) (read : KeyStore.key keyClass id store = .ok key) : key.id = id
  gone (encryption : keyClass = .encryption) (after : FileStore)
    (done : perform (KeyStore.removeEncryptionKey id) store = (.ok (), after)) :
    ∃ rest, KeyStore.keys .encryption after = .ok rest ∧ rest.find? id = none

variable {store : FileStore} {keyClass : KeyClass} {table : KeyTable} {id : Uuid}

theorem find?_table (listed : KeyStore.keys keyClass store = .ok table)
    (placed : store.Placed keyClass id) :
    table.find? id = store.entry keyClass (fileName id) := by
  obtain ⟨-, rfl⟩ := keys_eq_ok_iff.1 listed
  exact placed.find?_contents

theorem removed_of_placed {after : FileStore}
    (listed : KeyStore.keys .encryption store = .ok table) (placed : store.Placed .encryption id)
    (done : perform (KeyStore.removeEncryptionKey id) store = (.ok (), after)) :
    ∃ rest, KeyStore.keys .encryption after = .ok rest ∧ rest.find? id = none := by
  rw [(keys_eq_ok_iff.1 listed).1.remove id] at done
  obtain ⟨-, rfl⟩ := Prod.mk.inj done
  split
  · refine ⟨_, keys_withoutFile_of_record listed placed, ?_⟩
    rw [KeyTable.find?_erase, if_pos rfl]
  · next missing =>
      refine ⟨table, listed, ?_⟩
      rw [find?_table listed placed, entry_of_absent]
      simpa [pathExists, keyPlace] using missing

theorem agrees_of_placed (listed : KeyStore.keys keyClass store = .ok table)
    (placed : store.Placed keyClass id) : store.Agrees keyClass id table := by
  have searched := (keys_eq_ok_iff.1 listed).1.key id
  rw [← find?_table listed placed] at searched
  have found (key : Key) : KeyStore.key keyClass id store = .ok key ↔ table.find? id = some key := by
    rw [searched]
    cases table.find? id <;> simp
  refine ⟨found, fun absent => ?_, fun key read => ?_, ?_⟩
  · rw [searched, absent]
    rfl
  · exact KeyTable.id_of_find? ((found key).1 read)
  · rintro rfl after done
    exact removed_of_placed listed placed done

theorem Agrees.placed (listed : KeyStore.keys .encryption store = .ok table)
    (agrees : store.Agrees .encryption id table) : store.Placed .encryption id := by
  intro name key found
  have legible := (keys_eq_ok_iff.1 listed).1
  constructor
  · rintro rfl
    refine agrees.own key ?_
    rw [legible.key, found]
    rfl
  · rintro rfl
    by_contra apart
    obtain ⟨rest, relisted, absent⟩ := agrees.gone rfl _ (legible.remove key.id)
    obtain ⟨-, rfl⟩ := keys_eq_ok_iff.1 relisted
    refine KeyTable.find?_ofList_ne_none (mem_contents.2 ⟨name, ?_⟩) absent
    split
    · rw [entry_withoutFile_of_ne apart, found]
    · exact found

/-! ## A record that has been moved -/

def blank : FileStore where
  disk := ⟨[(["keys"], .directory), (["keys", "signing"], .directory),
    (["keys", "encryption"], .directory)], []⟩
  base := "/keys"
  masterKey := List.replicate keyLength 9
  length_masterKey := List.length_replicate

def emptyKey : Key := ⟨.zero, [], ⟨86400, 0, by decide, by decide, by decide⟩⟩

def zeroNonce : Nonce := ⟨List.replicate Gcm.nonceLength 0, by decide⟩

theorem keys_blank (keyClass : KeyClass) : KeyStore.keys keyClass blank = .ok [] := by
  cases keyClass <;> rfl

theorem entry_blank (keyClass : KeyClass) (name : String) : blank.entry keyClass name = none := by
  have empty : blank.contents keyClass = [] := by cases keyClass <;> rfl
  refine Option.eq_none_iff_forall_ne_some.2 fun key found => ?_
  exact List.not_mem_nil (empty ▸ mem_contents.2 ⟨name, found⟩)

theorem keys_blank_withFile {name : String} {content : String} {mode : Nat}
    (byName : extension? name = recordSuffix)
    (written : encode blank.masterKey emptyKey (.ok zeroNonce) = .ok content) :
    KeyStore.keys .encryption
      (blank.withFile .encryption name (.file (Utf8.encode content) mode)) = .ok [emptyKey] := by
  have there := @entry_withFile_of_record blank .encryption name _ _ _ mode byName written
  have legible := (keys_eq_ok_iff.1 (keys_blank .encryption)).1
  refine keys_eq_ok_iff.2 ⟨legible.withFile fun _ => by rw [there]; rfl, ?_⟩
  rw [contents_withFile, there]
  rfl

theorem placed_blank_withFile {content : String} {mode : Nat}
    (written : encode blank.masterKey emptyKey (.ok zeroNonce) = .ok content) (id : Uuid) :
    (blank.withFile .encryption (fileName emptyKey.id)
      (.file (Utf8.encode content) mode)).Placed .encryption id := by
  intro name key found
  by_cases same : name = fileName emptyKey.id
  · rw [same, entry_withFile_of_record (extension?_fileName _) written] at found
    rw [same, ← Option.some.inj found, fileName_injective.eq_iff]
  · rw [entry_withFile_of_ne same, entry_blank] at found
    cases found

theorem moved_record_out_of_reach : ∃ content,
    encode blank.masterKey emptyKey (.ok zeroNonce) = .ok content ∧
      let store := blank.withFile .encryption "moved.json" (.file (Utf8.encode content) defaultMode)
      KeyStore.keys .encryption store = .ok [emptyKey] ∧
        KeyStore.key .encryption emptyKey.id store = .error (.notFound emptyKey.id) ∧
        perform (KeyStore.removeEncryptionKey emptyKey.id) store = (.ok (), store) ∧
        ¬store.Agrees .encryption emptyKey.id [emptyKey] := by
  have short : emptyKey.secret.length ≤ Gcm.maxTextLength := Nat.zero_le _
  obtain ⟨content, written⟩ := blank.exists_encode short zeroNonce
  refine ⟨content, written, ?_⟩
  intro store
  have byName : extension? "moved.json" = recordSuffix := by decide
  have apart : fileName emptyKey.id ≠ "moved.json" := by decide
  have listed : KeyStore.keys .encryption store = .ok [emptyKey] :=
    keys_blank_withFile byName written
  have legible := (keys_eq_ok_iff.1 listed).1
  have missing : store.disk.pathExists (store.keyPlace .encryption emptyKey.id) = false := by
    refine (congrArg Option.isSome (node?_withFile_of_ne apart)).trans ?_
    decide
  refine ⟨listed, ?_, ?_, fun agrees => ?_⟩
  · rw [legible.key, entry_withFile_of_ne apart, entry_blank]
    rfl
  · rw [legible.remove, missing]
    rfl
  · have placed := agrees.placed listed "moved.json" emptyKey
      (entry_withFile_of_record byName written)
    exact apart (placed.2 rfl).symm

theorem agrees_record : ∃ content,
    encode blank.masterKey emptyKey (.ok zeroNonce) = .ok content ∧
      let store := blank.withFile .encryption (fileName emptyKey.id)
        (.file (Utf8.encode content) ownerOnly)
      KeyStore.keys .encryption store = .ok [emptyKey] ∧ store.Placed .encryption emptyKey.id ∧
        store.Agrees .encryption emptyKey.id [emptyKey] := by
  have short : emptyKey.secret.length ≤ Gcm.maxTextLength := Nat.zero_le _
  obtain ⟨content, written⟩ := blank.exists_encode short zeroNonce
  refine ⟨content, written, ?_⟩
  intro store
  have listed : KeyStore.keys .encryption store = .ok [emptyKey] :=
    keys_blank_withFile (extension?_fileName _) written
  have placed : store.Placed .encryption emptyKey.id := placed_blank_withFile written _
  exact ⟨listed, placed, agrees_of_placed listed placed⟩

end Bearer.FileStore
