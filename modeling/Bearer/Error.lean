import Bearer.Config.Fault
import Bearer.Text.Quoted
import Bearer.Time.Span
import Bearer.Uuid

namespace Bearer

inductive FileError where
  | notFound
  | exists
  | notDirectory
  | isDirectory
  | nameTooLong
  | notUtf8
  | nulInName
  deriving DecidableEq, Repr

def FileError.message : FileError → String
  | .notFound => "No such file or directory (os error 2)"
  | .exists => "File exists (os error 17)"
  | .notDirectory => "Not a directory (os error 20)"
  | .isDirectory => "Is a directory (os error 21)"
  | .nameTooLong => "File name too long (os error 36)"
  | .notUtf8 => "stream did not contain valid UTF-8"
  | .nulInName => "file name contained an unexpected NUL byte"

inductive SealingFault where
  | masterKeyLength (length : Nat)
  | encoding (fault : Base64Url.DecodeError)
  | closed (id : Uuid) (fault : CryptoError)
  | cipher (fault : CryptoError)

def SealingFault.message : SealingFault → String
  | .masterKeyLength length => s!"master key must be {keyLength} bytes, got {length}"
  | .encoding fault => s!"invalid key encoding: {fault.message}"
  | .closed id fault => s!"cannot unseal key {id.text}: {fault.message}"
  | .cipher fault => fault.message

inductive BackendFault where
  | writesDisabled
  | savesDisabled

def BackendFault.message : BackendFault → String
  | .writesDisabled => "writes disabled"
  | .savesDisabled => "saves disabled"

inductive StoreError where
  | io (fault : FileError)
  | serialization (reason : String)
  | sealing (fault : SealingFault)
  | notFound (id : Uuid)
  | backend (fault : BackendFault)

def StoreError.message : StoreError → String
  | .io fault => s!"IO error: {fault.message}"
  | .serialization reason => s!"Serialization error: {reason}"
  | .sealing fault => s!"Sealing error: {fault.message}"
  | .notFound id => s!"Key not found: {id.text}"
  | .backend fault => s!"Backend error: {fault.message}"

inductive StoreTask where
  | opening
  | loading (signing : Bool)
  | saving (signing : Bool)
  | removingPrevious
  | listing (signing : Bool)

def StoreTask.name : StoreTask → String
  | .opening => "opening key store"
  | .loading true => "loading signing keys"
  | .loading false => "loading encryption keys"
  | .saving true => "saving signing key"
  | .saving false => "saving encryption key"
  | .removingPrevious => "removing previous encryption key"
  | .listing true => "listing signing keys"
  | .listing false => "listing encryption keys"

inductive TokenFault where
  | segmentCount
  | encoding (segment : String) (fault : Base64Url.DecodeError)
  | header (reason : String)
  | algorithm (name : String)
  | missingKeyId
  | keyId (fault : Uuid.ReadError)
  | encryptedPayload
  | payloadEncryption (name : Option String)
  | shortCiphertext

def TokenFault.message : TokenFault → String
  | .segmentCount => "expected three dot-separated segments"
  | .encoding segment fault => s!"invalid {segment} encoding: {fault.message}"
  | .header reason => s!"invalid header: {reason}"
  | .algorithm name => s!"unsupported algorithm: {name}"
  | .missingKeyId => "missing kid"
  | .keyId fault => s!"invalid kid: {fault.message}"
  | .encryptedPayload => "encrypted token presented for plain verification"
  | .payloadEncryption none => "unsupported payload encryption: None"
  | .payloadEncryption (some name) => s!"unsupported payload encryption: Some({Text.quoted name})"
  | .shortCiphertext => CryptoError.truncated.message

inductive ClaimsFault where
  | json (reason : String)
  | argument (reason : String)
  | expiryOutOfRange (lifetime : Span)
  | missingExpiry

def ClaimsFault.message : ClaimsFault → String
  | .json reason => reason
  | .argument reason => s!"--claims: {reason}"
  | .expiryOutOfRange lifetime => s!"expiry out of range: now + {lifetime.text}"
  | .missingExpiry => "missing exp claim"

inductive Error where
  | config (fault : ConfigFault)
  | malformedToken (fault : TokenFault)
  | keyNotFound (id : Uuid)
  | noPreviousKey
  | invalidSignature
  | decryptionFailed
  | expired
  | malformedClaims (fault : ClaimsFault)
  | generation (reason : String)
  | crypto (fault : CryptoError)
  | store (task : StoreTask) (source : StoreError)
  | calendarEnds

namespace Error

def message : Error → String
  | .config fault => s!"Configuration error: {fault.message}"
  | .malformedToken fault => s!"Malformed token: {fault.message}"
  | .keyNotFound id => s!"Key not found: {id.text}"
  | .noPreviousKey => "Key not found: no previous encryption key"
  | .invalidSignature => "Invalid signature"
  | .decryptionFailed => "Decryption failed"
  | .expired => "Token has expired"
  | .malformedClaims fault => s!"Malformed claims: {fault.message}"
  | .generation reason => s!"Key generation failed: {reason}"
  | .crypto fault => s!"Cryptographic failure: {fault.message}"
  | .store task source => s!"Key store error while {task.name}: {source.message}"
  | .calendarEnds => "Key expiry beyond the calendar"

/-- Whether the caller presented a bad credential, as opposed to a failure on the server's side. -/
def isRejection : Error → Bool
  | .malformedToken _ | .keyNotFound _ | .noPreviousKey | .invalidSignature | .decryptionFailed
  | .expired | .malformedClaims _ => true
  | .config _ | .generation _ | .crypto _ | .store _ _ | .calendarEnds => false

end Error

end Bearer
