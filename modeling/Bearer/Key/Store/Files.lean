import Bearer.FileSystem
import Bearer.Key.Record
import Bearer.Key.Store

namespace Bearer

structure FileStore where
  disk : FileSystem
  base : String
  masterKey : Bytes
  length_masterKey : masterKey.length = keyLength

namespace FileStore

def directory (disk : FileSystem) (base : String) (keyClass : KeyClass) : Location :=
  disk.locate base ++ [keyClass.name]

def openAt (disk : FileSystem) (base : String) (masterKey : Bytes) :
    Except StoreError FileStore × FileSystem :=
  if length : masterKey.length = keyLength then
    match disk.makeDirectories (FileSystem.join base KeyClass.signing.name) with
    | (.error fault, disk) => (.error (.io fault), disk)
    | (.ok (), disk) =>
        match disk.makeDirectories (FileSystem.join base KeyClass.encryption.name) with
        | (.error fault, disk) => (.error (.io fault), disk)
        | (.ok (), disk) => (.ok ⟨disk, base, masterKey, length⟩, disk)
  else (.error (.sealing (.masterKeyLength masterKey.length)), disk)

def classDirectory (store : FileStore) (keyClass : KeyClass) : Location :=
  directory store.disk store.base keyClass

def fileName (id : Uuid) : String := id.text ++ ".json"

def keyPlace (store : FileStore) (keyClass : KeyClass) (id : Uuid) : Location :=
  store.classDirectory keyClass ++ [fileName id]

def draftPlace (store : FileStore) (keyClass : KeyClass) (id : Uuid) : Location :=
  store.classDirectory keyClass ++ [fileName id ++ ".tmp"]

/-! ## Reading -/

def decode (masterKey : Bytes) (text : String) : Except StoreError Key := do
  let bytes := Utf8.encode text
  let record ← (KeyRecord.read bytes).mapError fun fault => .serialization (fault.message bytes)
  let sealed ← (Base64Url.decode (Utf8.encode record.sealed)).mapError fun fault =>
    .sealing (.encoding fault)
  let secret ← (openSealed sealed masterKey).mapError fun fault =>
    .sealing (.closed record.id fault)
  return ⟨record.id, secret, record.expiresAt⟩

def readKey (store : FileStore) (place : Location) : Except StoreError Key := do
  decode store.masterKey (← (store.disk.readText place).mapError .io)

def readEntry (store : FileStore) (directory : Location) (name : String) :
    Except StoreError (Option Key) :=
  if FileSystem.extension? name = some "json".toList then
    (store.readKey (directory ++ [name])).map some
  else .ok none

def keys (keyClass : KeyClass) (store : FileStore) : Except StoreError KeyTable := do
  let directory := store.classDirectory keyClass
  let names ← (store.disk.list directory).mapError .io
  let entries ← names.mapM (store.readEntry directory)
  return KeyTable.ofList (entries.filterMap id)

def key (keyClass : KeyClass) (id : Uuid) (store : FileStore) : Except StoreError Key :=
  let place := store.keyPlace keyClass id
  if store.disk.pathExists place then store.readKey place else .error (.notFound id)

/-! ## Writing -/

def onDisk (step : FileSystem.Step) : StoreM FileStore Unit := do
  let store ← get
  match store.disk.step step with
  | .ok disk => set { store with disk }
  | .error fault => throw (.io fault)

def encode (masterKey : Bytes) (key : Key) (nonce : Drawn Nonce) : Except StoreError String := do
  let sealed ← (sealText key.secret masterKey nonce).mapError fun fault =>
    .sealing (.cipher fault)
  return KeyRecord.text ⟨key.id, Base64Url.encode sealed, key.expiresAt⟩

/-- A record is complete, and closed to others, before it takes its place. A file that cannot be
closed to others is kept all the same. -/
def save (keyClass : KeyClass) (key : Key) (nonce : Drawn Nonce) : StoreM FileStore Unit := do
  let store ← get
  let content ← encode store.masterKey key nonce
  let draft := store.draftPlace keyClass key.id
  onDisk (.write draft (Utf8.encode content))
  tryCatch (onDisk (.setMode draft FileSystem.ownerOnly)) fun _ => pure ()
  onDisk (.rename draft (store.keyPlace keyClass key.id))

def removeEncryptionKey (id : Uuid) : StoreM FileStore Unit := do
  let place := (← get).keyPlace .encryption id
  if (← get).disk.pathExists place then onDisk (.remove place)

instance : KeyStore FileStore where
  keys
  key
  save
  removeEncryptionKey

def describe (store : FileStore) : String :=
  s!"FileKeyStore \x7b base_dir: {Text.quotedPath store.base}, .. \x7d"

end FileStore

end Bearer
