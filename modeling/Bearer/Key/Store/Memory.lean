import Bearer.Key.Store

namespace Bearer

structure MemoryStore where
  signing : KeyTable
  encryption : KeyTable
  failWrites : Bool
  failSaves : Bool
  deriving DecidableEq

namespace MemoryStore

def empty : MemoryStore := ⟨[], [], false, false⟩

def table (store : MemoryStore) : KeyClass → KeyTable
  | .signing => store.signing
  | .encryption => store.encryption

def key (store : MemoryStore) (keyClass : KeyClass) (id : Uuid) : Except StoreError Key :=
  match (store.table keyClass).find? id with
  | some key => .ok key
  | none => .error (.notFound id)

def checkWritable (store : MemoryStore) : Except StoreError Unit :=
  if store.failWrites then .error (.backend .writesDisabled) else .ok ()

def checkSavable (store : MemoryStore) : Except StoreError Unit := do
  store.checkWritable
  if store.failSaves then .error (.backend .savesDisabled) else .ok ()

def insert (store : MemoryStore) (keyClass : KeyClass) (key : Key) : MemoryStore :=
  match keyClass with
  | .signing => { store with signing := store.signing.insert key }
  | .encryption => { store with encryption := store.encryption.insert key }

def save (keyClass : KeyClass) (key : Key) : StoreM MemoryStore Unit := do
  (← get).checkSavable
  modify (·.insert keyClass key)

def removeEncryptionKey (id : Uuid) : StoreM MemoryStore Unit := do
  (← get).checkWritable
  modify fun store => { store with encryption := store.encryption.erase id }

instance : KeyStore MemoryStore where
  keys keyClass store := .ok (store.table keyClass)
  key keyClass id store := store.key keyClass id
  save keyClass key _ := save keyClass key
  removeEncryptionKey := removeEncryptionKey

end MemoryStore

end Bearer
