import Bearer.Error
import Bearer.Key.Basic

namespace Bearer

abbrev StoreM (σ : Type) := ExceptT StoreError (StateM σ)

class KeyStore (σ : Type) where
  keys : KeyClass → σ → Except StoreError KeyTable
  key : KeyClass → Uuid → σ → Except StoreError Key
  save : KeyClass → Key → Drawn Nonce → StoreM σ Unit
  /-- An unknown identifier is no error. -/
  removeEncryptionKey : Uuid → StoreM σ Unit

end Bearer
