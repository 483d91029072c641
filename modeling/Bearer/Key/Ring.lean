import Bearer.Key.Audit
import Bearer.Key.Store
/-!
The key ring: the keys in use, and their rotation. There is no scheduler; whoever first finds the
current key absent or no longer valid mints the next one, has it stored, and only then installs it.

Encryption keys live for two generations. The third deletes the first from the store, and what was
sealed under it stays closed for good.
-/

namespace Bearer

structure SigningSlot where
  current : Option Key
  all : KeyTable

structure EncryptionSlot where
  current : Option Key
  previous : Option Key

structure KeyRing where
  signing : SigningSlot
  encryption : EncryptionSlot

/-- A ring at work: with the store behind it and the audit trail up to now. -/
structure Keeper (σ : Type) where
  ring : KeyRing
  store : σ
  trail : List AuditEvent

/-- An action on a ring. What it did before it failed is kept. -/
abbrev KeeperM (σ : Type) := ExceptT Error (StateM (Keeper σ))

namespace KeyRing

def empty : KeyRing := ⟨⟨none, []⟩, ⟨none, none⟩⟩

/-! ## Loading -/

def latest? (keys : List Key) : Option Key :=
  keys.foldl (fun best key =>
    match best with
    | none => some key
    | some held => if key.expiresAt < held.expiresAt then some held else some key) none

def insertByExpiry (key : Key) : List Key → List Key
  | [] => [key]
  | other :: rest =>
      if other.expiresAt < key.expiresAt then key :: other :: rest
      else other :: insertByExpiry key rest

/-- Latest expiry first; keys with equal expiries keep their order. -/
def sortByExpiry (keys : List Key) : List Key :=
  keys.foldl (fun sorted key => insertByExpiry key sorted) []

def ofTables (signing encryption : KeyTable) : KeyRing :=
  let sorted := sortByExpiry encryption
  ⟨⟨latest? signing, signing⟩, ⟨sorted[0]?, sorted[1]?⟩⟩

def loadedEvents (ring : KeyRing) : List AuditEvent :=
  ring.signing.current.toList.map (.loaded .signing) ++
    (ring.encryption.current.toList ++ ring.encryption.previous.toList).map (.loaded .encryption)

/-! ## Views -/

def validSigningKey? (ring : KeyRing) (now : Instant) : Option Key :=
  ring.signing.current.filter (·.isValid now)

def validEncryptionKey? (ring : KeyRing) (now : Instant) : Option Key :=
  ring.encryption.current.filter (·.isValid now)

/-- A key that has signed a token goes on verifying it, whether or not the key has expired. -/
def signingKey (ring : KeyRing) (id : Uuid) : Except Error Key :=
  match ring.signing.all.find? id with
  | some key => .ok key
  | none => .error (.keyNotFound id)

def previousEncryptionKey (ring : KeyRing) : Except Error Key :=
  match ring.encryption.previous with
  | some key => .ok key
  | none => .error .noPreviousKey

/-! ## Changes of the slots -/

def installSigningKey (ring : KeyRing) (key : Key) : KeyRing :=
  { ring with signing := ⟨some key, ring.signing.all.insert key⟩ }

def installEncryptionKey (ring : KeyRing) (key : Key) : KeyRing :=
  { ring with encryption := ⟨some key, ring.encryption.current⟩ }

def describeId : Option Key → String
  | none => "None"
  | some key => s!"Some({key.id.text})"

def describe (ring : KeyRing) : String :=
  s!"KeyRing \x7b current_signing: {describeId ring.signing.current}, " ++
    s!"signing_keys: {ring.signing.all.length}, " ++
    s!"current_encryption: {describeId ring.encryption.current}, " ++
    s!"previous_encryption: {describeId ring.encryption.previous}, .. \x7d"

end KeyRing

namespace Keeper

variable {σ : Type} [KeyStore σ]

/-- Builds the ring from all keys of a store. The latest signing key becomes current, the two latest
encryption keys become current and previous; expired keys are taken as they are. The signing key
is announced even if the encryption keys then cannot be read. -/
def load (store : σ) : Except Error KeyRing × List AuditEvent :=
  match KeyStore.keys .signing store with
  | .error fault => (.error (.store (.loading true) fault), [])
  | .ok signing =>
      match KeyStore.keys .encryption store with
      | .error fault =>
          (.error (.store (.loading false) fault), (KeyRing.ofTables signing []).loadedEvents)
      | .ok encryption =>
          let ring := KeyRing.ofTables signing encryption
          (.ok ring, ring.loadedEvents)

/-! ## Rotation -/

def emit (event : AuditEvent) : KeeperM σ Unit :=
  modify fun keeper => { keeper with trail := keeper.trail ++ [event] }

def modifyRing (change : KeyRing → KeyRing) : KeeperM σ Unit :=
  modify fun keeper => { keeper with ring := change keeper.ring }

def failRotation {α : Type} (keyClass : KeyClass) (error : Error) : KeeperM σ α := do
  emit (.rotationFailed keyClass error.message)
  throw error

/-- A fresh key. Where the calendar ends, the call breaks off and the trail tells nothing. -/
def mint (keyClass : KeyClass) (now : Instant) (draw : KeyDraw) : KeeperM σ Key :=
  match Key.mint now draw with
  | .ok key => pure key
  | .error (.random reason) =>
      failRotation keyClass (.generation (CryptoError.random reason).message)
  | .error .calendarEnds => throw .calendarEnds

def onStore (keyClass : KeyClass) (task : StoreTask) (action : StoreM σ Unit) :
    KeeperM σ Unit := do
  let keeper ← get
  let (outcome, store) := action.run.run keeper.store
  set { keeper with store }
  match outcome with
  | .ok () => return ()
  | .error fault => failRotation keyClass (.store task fault)

def rotateSigningKey (now : Instant) (draw : KeyDraw) : KeeperM σ Key := do
  match (← get).ring.validSigningKey? now with
  | some key => return key
  | none => do
      let key ← mint .signing now draw
      onStore .signing (.saving true) (KeyStore.save .signing key draw.nonce)
      modifyRing (·.installSigningKey key)
      emit (.minted .signing key)
      return key

def currentSigningKey (now : Instant) (draw : KeyDraw) : KeeperM σ Key := do
  match (← get).ring.validSigningKey? now with
  | some key => return key
  | none => rotateSigningKey now draw

/-- What happens under the write lock. The slots change only after the store has done its part, in
which the previous key goes before the next one comes. -/
def rotateEncryptionKey (now : Instant) (draw : KeyDraw) : KeeperM σ Key := do
  match (← get).ring.validEncryptionKey? now with
  | some key => return key
  | none => do
      let key ← mint .encryption now draw
      let evicted := (← get).ring.encryption.previous.map Key.id
      match evicted with
      | some id => onStore .encryption .removingPrevious (KeyStore.removeEncryptionKey id)
      | none => pure ()
      onStore .encryption (.saving false) (KeyStore.save .encryption key draw.nonce)
      modifyRing (·.installEncryptionKey key)
      match evicted with
      | some id => emit (.evicted .encryption id)
      | none => pure ()
      emit (.minted .encryption key)
      return key

def currentEncryptionKey (now : Instant) (draw : KeyDraw) : KeeperM σ Key := do
  match (← get).ring.validEncryptionKey? now with
  | some key => return key
  | none => rotateEncryptionKey now draw

end Keeper

end Bearer
