import Bearer.Crypto.Seal
import Bearer.Time.Rfc3339
import Bearer.Uuid

namespace Bearer

structure Key where
  id : Uuid
  secret : Bytes
  expiresAt : Instant
  deriving DecidableEq

inductive KeyClass where
  | signing
  | encryption
  deriving DecidableEq, Repr

def KeyClass.name : KeyClass → String
  | .signing => "signing"
  | .encryption => "encryption"

structure Secret where
  bytes : Bytes
  length_eq : bytes.length = keyLength

/-- What a mint needs from the outside: fresh randomness, and a nonce to seal the key at rest. Each
may be refused but the identifier, without which the program does not go on. -/
structure KeyDraw where
  id : Uuid
  secret : Drawn Secret
  nonce : Drawn Nonce
  id_not_nil : id.isNil = false

namespace KeyDraw

def size : Nat := 16 + keyLength + Gcm.nonceLength

def ofBytes? (bytes : Bytes) : Option KeyDraw :=
  if idLength : (bytes.take 16).length = 16 then
    if secretLength : ((bytes.drop 16).take keyLength).length = keyLength then
      (Nonce.ofBytes? (bytes.drop (16 + keyLength))).map fun nonce =>
        { id := Uuid.ofRandom (bytes.take 16) idLength
          secret := .ok ⟨(bytes.drop 16).take keyLength, secretLength⟩
          nonce := .ok nonce
          id_not_nil := Uuid.isNil_ofRandom _ idLength }
    else none
  else none

def refused (reason : String) : KeyDraw where
  id := Uuid.ofRandom (List.replicate 16 0) rfl
  secret := .error reason
  nonce := .error reason
  id_not_nil := Uuid.isNil_ofRandom _ rfl

end KeyDraw

inductive MintFault where
  | random (reason : String)
  | calendarEnds

namespace Key

def lifetime : Span := Span.days 182

def mint (now : Instant) (draw : KeyDraw) : Except MintFault Key := do
  let secret ← draw.secret.mapError .random
  match now.add? lifetime with
  | some expiresAt => return ⟨draw.id, secret.bytes, expiresAt⟩
  | none => throw .calendarEnds

/-- A key can be used until it expires, unless it lacks an identifier or a secret. -/
def isValid (key : Key) (now : Instant) : Bool :=
  !key.id.isNil && !key.secret.isEmpty && decide (now < key.expiresAt)

def describe (key : Key) : String :=
  s!"KeyMaterial \x7b id: {key.id.text}, secret: [redacted; {key.secret.length} bytes], " ++
    s!"expires_at: {key.expiresAt.rfc3339} \x7d"

end Key

abbrev KeyTable := List Key

namespace KeyTable

def find? (table : KeyTable) (id : Uuid) : Option Key := List.find? (fun key => key.id == id) table

def erase (table : KeyTable) (id : Uuid) : KeyTable := List.filter (fun key => key.id != id) table

def insert (table : KeyTable) (key : Key) : KeyTable := table.erase key.id ++ [key]

def ofList (keys : List Key) : KeyTable := keys.foldl insert []

end KeyTable

end Bearer
