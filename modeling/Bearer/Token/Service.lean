import Bearer.Crypto.Hmac
import Bearer.Key.Ring
import Bearer.Token.Claims
import Bearer.Token.Envelope
/-!
Issuing tokens and verifying them. The payload of a plain token is the JSON text of its claims; that
of an encrypted token is the same text sealed, and the signature covers the ciphertext.

Keys come from the ring unless the caller gives one. The identifier of a ring key travels in the
header, so a token verifies under any key that ever signed. An encrypted token that the current key
does not open is tried once more with the previous one.
-/

namespace Bearer

structure TokenPolicy where
  requireExpiry : Bool
  deriving DecidableEq

structure Entropy where
  encryptionKey : KeyDraw
  signingKey : KeyDraw
  payload : Drawn Nonce

namespace Entropy

def size : Nat := KeyDraw.size + KeyDraw.size + Gcm.nonceLength

def ofBytes? (bytes : Bytes) : Option Entropy := do
  let encryptionKey ← KeyDraw.ofBytes? (bytes.take KeyDraw.size)
  let signingKey ← KeyDraw.ofBytes? ((bytes.drop KeyDraw.size).take KeyDraw.size)
  let payload ← Nonce.ofBytes? (bytes.drop (KeyDraw.size + KeyDraw.size))
  return ⟨encryptionKey, signingKey, .ok payload⟩

def refused (reason : String) : Entropy := ⟨.refused reason, .refused reason, .error reason⟩

end Entropy

structure TokenService where
  issuer : String
  policy : TokenPolicy

namespace TokenService

def ofDomain (domain : String) (policy : TokenPolicy) : TokenService :=
  ⟨"https://" ++ domain, policy⟩

/-- An empty key is none. -/
def explicit (key : Option Bytes) : Option Bytes := key.filter (!·.isEmpty)

/-! ## Claims -/

def stamp (service : TokenService) (claims : Claims) (now : Instant) : Claims :=
  { claims with iss := some service.issuer, iat := some (claims.iat.getD now.second) }

def encodeClaims (claims : Claims) : Bytes := Utf8.encode claims.toJson.compact

def decodeClaims (payload : Bytes) : Except Error Claims :=
  (Claims.read payload).mapError fun fault => .malformedClaims (.json (fault.message payload))

def checkExpiry (service : TokenService) (claims : Claims) (now : Instant) : Except Error Unit :=
  match claims.exp with
  | some _ => if claims.isExpired now then .error .expired else .ok ()
  | none =>
      if service.policy.requireExpiry then .error (.malformedClaims .missingExpiry) else .ok ()

def acceptClaims (service : TokenService) (payload : Bytes) (now : Instant) :
    Except Error Claims := do
  let claims ← decodeClaims payload
  service.checkExpiry claims now
  return claims

/-! ## Signatures -/

def signingInput (header : Header) (payload : Bytes) : String :=
  encodeSegment (Utf8.encode header.toJson.compact) ++ "." ++ encodeSegment payload

def signedToken (header : Header) (payload secret : Bytes) : String :=
  let input := signingInput header payload
  input ++ "." ++ encodeSegment (Hmac.sign (Utf8.encode input) secret)

variable {σ : Type} [KeyStore σ]

def sealEnvelope (header : Header) (payload : Bytes) (signingKey : Option Bytes) (now : Instant)
    (draw : KeyDraw) : KeeperM σ String := do
  match explicit signingKey with
  | some secret => return signedToken header payload secret
  | none => do
      let key ← Keeper.currentSigningKey now draw
      return signedToken { header with kid := some key.id.text } payload key.secret

def verificationSecret (ring : KeyRing) (header : Header) (signingKey : Option Bytes) :
    Except Error Bytes :=
  match explicit signingKey with
  | some secret => .ok secret
  | none =>
      match header.kid with
      | none => .error (.malformedToken .missingKeyId)
      | some kid => do
          let id ← (Uuid.read kid).mapError fun fault => .malformedToken (.keyId fault)
          return (← ring.signingKey id).secret

/-- Cuts a token and checks its signature. One that cannot be decoded matches nothing. -/
def openEnvelope (ring : KeyRing) (token : String) (signingKey : Option Bytes) :
    Except Error (Header × Envelope) := do
  let envelope ← Envelope.split token
  let header ← envelope.header
  if header.alg ≠ Header.hs256 then throw (.malformedToken (.algorithm header.alg))
  let secret ← verificationSecret ring header signingKey
  let signature ← envelope.signature.mapError fun _ => .invalidSignature
  if Hmac.verify (Utf8.encode envelope.signingInput) signature secret then return (header, envelope)
  else throw .invalidSignature

/-! ## Plain tokens -/

def signPlain (service : TokenService) (claims : Claims) (signingKey : Option Bytes)
    (now : Instant) (entropy : Entropy) : KeeperM σ String :=
  sealEnvelope .plain (encodeClaims (service.stamp claims now)) signingKey now entropy.signingKey

def verifyPlain (service : TokenService) (ring : KeyRing) (token : String)
    (signingKey : Option Bytes) (now : Instant) : Except Error Claims := do
  let (header, envelope) ← openEnvelope ring token signingKey
  if header.isEncrypted then throw (.malformedToken .encryptedPayload)
  service.acceptClaims (← envelope.payload) now

/-! ## Encrypted tokens -/

def sealError : CryptoError → Error
  | .random reason => .generation reason
  | fault => .crypto fault

/-- A failure to open means a bad token, unless the key itself is unfit. -/
def openError : CryptoError → Error
  | .aead => .decryptionFailed
  | .truncated => .malformedToken .shortCiphertext
  | fault => .crypto fault

def signEncrypted (service : TokenService) (claims : Claims)
    (encryptionKey signingKey : Option Bytes) (now : Instant) (entropy : Entropy) :
    KeeperM σ String := do
  let payload := encodeClaims (service.stamp claims now)
  let secret ←
    match explicit encryptionKey with
    | some secret => pure secret
    | none => Key.secret <$> Keeper.currentEncryptionKey now entropy.encryptionKey
  let sealed ← (sealText payload secret entropy.payload).mapError sealError
  sealEnvelope .encrypted sealed signingKey now entropy.signingKey

/-- Opens with the current key or else with the previous one. If neither does, the failure of the
current key is reported. -/
def openWithKeys (sealed : Bytes) (current : Key) (previous : Option Key) : Except Error Bytes :=
  match openSealed sealed current.secret with
  | .ok plaintext => .ok plaintext
  | .error fault =>
      match previous with
      | none => .error (openError fault)
      | some key => (openSealed sealed key.secret).mapError fun _ => openError fault

def openWithRing (sealed : Bytes) (now : Instant) (draw : KeyDraw) : KeeperM σ Bytes := do
  let current ← Keeper.currentEncryptionKey now draw
  openWithKeys sealed current (← get).ring.encryption.previous

def sealedPayload (header : Header) (envelope : Envelope) : Except Error Bytes := do
  if header.enc ≠ some Header.a256gcm then
    throw (.malformedToken (.payloadEncryption header.enc))
  let sealed ← envelope.payload
  if sealed.length < Gcm.nonceLength then throw (.malformedToken .shortCiphertext)
  return sealed

def verifyEncrypted (service : TokenService) (token : String)
    (encryptionKey signingKey : Option Bytes) (now : Instant) (entropy : Entropy) :
    KeeperM σ Claims := do
  let (header, envelope) ← openEnvelope (← get).ring token signingKey
  let sealed ← sealedPayload header envelope
  match explicit encryptionKey with
  | some secret => do
      let plaintext ← (openSealed sealed secret).mapError openError
      service.acceptClaims plaintext now
  | none => do
      let plaintext ← openWithRing sealed now entropy.encryptionKey
      service.acceptClaims plaintext now

def describe (service : TokenService) (ring : KeyRing) : String :=
  s!"TokenService \x7b issuer: {Text.quoted service.issuer}, keys: {ring.describe}, " ++
    s!"policy: TokenPolicy \x7b require_expiry: {service.policy.requireExpiry} \x7d, .. \x7d"

end TokenService

end Bearer
