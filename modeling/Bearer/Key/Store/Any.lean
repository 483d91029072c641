import Bearer.Key.Store.Files
import Bearer.Key.Store.Memory

namespace Bearer

inductive Store where
  | memory (store : MemoryStore)
  | files (store : FileStore)

namespace Store

def act {α : Type} (onMemory : StoreM MemoryStore α) (onFiles : StoreM FileStore α) :
    StoreM Store α := fun store =>
  match store with
  | .memory inner =>
      let (outcome, inner) := onMemory.run.run inner
      (outcome, .memory inner)
  | .files inner =>
      let (outcome, inner) := onFiles.run.run inner
      (outcome, .files inner)

instance : KeyStore Store where
  keys keyClass
    | .memory inner => KeyStore.keys keyClass inner
    | .files inner => KeyStore.keys keyClass inner
  key keyClass id
    | .memory inner => KeyStore.key keyClass id inner
    | .files inner => KeyStore.key keyClass id inner
  save keyClass key nonce :=
    act (KeyStore.save keyClass key nonce) (KeyStore.save keyClass key nonce)
  removeEncryptionKey id :=
    act (KeyStore.removeEncryptionKey id) (KeyStore.removeEncryptionKey id)

end Store

end Bearer
