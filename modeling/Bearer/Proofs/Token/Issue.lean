import Bearer.Proofs.Key.Rotation
import Bearer.Proofs.Token.Acceptance
import Bearer.Proofs.Token.Codec
import Bearer.Proofs.Uuid

namespace Bearer.TokenService

open Keeper

def verdict (service : TokenService) (claims : Claims) (now : Instant) : Except Error Claims :=
  match claims.exp with
  | some exp => if now.second ≤ exp then .ok claims else .error .expired
  | none =>
      if service.policy.requireExpiry then .error (.malformedClaims .missingExpiry) else .ok claims

theorem acceptClaims_encodeClaims (service : TokenService) {claims : Claims}
    (encodable : claims.Encodable) (issuer : TokenService) (issued now : Instant) :
    service.acceptClaims (encodeClaims (issuer.stamp claims issued)) now =
      service.verdict (issuer.stamp claims issued) now := by
  rw [acceptClaims, decodeClaims_stamp issuer encodable, ok_bind]
  cases given : (issuer.stamp claims issued).exp with
  | some exp =>
      simp only [checkExpiry, verdict, Claims.isExpired, given, decide_eq_true_eq]
      by_cases late : now.second ≤ exp
      · rw [if_neg (Int.not_lt.2 late), if_pos late]
        rfl
      · rw [if_pos (Int.not_le.1 late), if_neg late]
        rfl
  | none =>
      simp only [checkExpiry, verdict, given]
      split <;> rfl

/-! ## Signed tokens -/

theorem signedToken_eq (header : Header) (payload secret : Bytes) :
    signedToken header payload secret =
      writtenToken (Utf8.encode header.toJson.compact) payload secret := rfl

def named (header : Header) (key : Key) : Header := { header with kid := some key.id.text }

theorem sealEnvelope_eq_ok {σ : Type} [KeyStore σ] {header : Header} {payload : Bytes}
    {now : Instant} {draw : KeyDraw} {keeper after : Keeper σ} {token : String}
    (done : perform (sealEnvelope header payload none now draw) keeper = (.ok token, after)) :
    ∃ key, SigningStep keeper now draw (.ok key) after ∧
      token = signedToken (named header key) payload key.secret := by
  change perform (do
    let key ← currentSigningKey now draw
    return signedToken (named header key) payload key.secret) keeper = _ at done
  rw [perform_bind] at done
  rcases asked : perform (currentSigningKey now draw) keeper with ⟨fault | key, left⟩
  · simp [asked] at done
  · simp only [asked, perform_pure] at done
    obtain ⟨isToken, rfl⟩ := Prod.mk.inj done
    exact ⟨key, currentSigningKey_step asked, (Except.ok.inj isToken).symm⟩

theorem authentic_of_secret {ring : KeyRing} {header : Header} {signingKey : Option Bytes}
    {secret : Bytes} (payload : Bytes) (algorithm : header.alg = Header.hs256)
    (isSecret : SigningSecret ring header signingKey secret) :
    Authentic ring (signedToken header payload secret) signingKey header
      (writtenEnvelope (Utf8.encode header.toJson.compact) payload secret) := by
  rw [signedToken_eq]
  exact authentic_writtenToken (Header.read_compact _) algorithm isSecret

theorem authentic_signedToken {ring : KeyRing} {header : Header} {key : Key} (payload : Bytes)
    (algorithm : header.alg = Header.hs256) (known : ring.signing.all.find? key.id = some key) :
    Authentic ring (signedToken (named header key) payload key.secret) none (named header key)
      (writtenEnvelope (Utf8.encode (named header key).toJson.compact) payload key.secret) :=
  authentic_of_secret payload algorithm (.named (.inl rfl) rfl (Uuid.read_text key.id) known)

theorem payload_writtenEnvelope (headerText payload secret : Bytes) :
    (writtenEnvelope headerText payload secret).payload = .ok payload :=
  Envelope.decode_eq_ok_iff_segment.2 rfl

theorem verifyPlain_of_secret (service : TokenService) {ring : KeyRing} {header : Header}
    {signingKey : Option Bytes} {secret : Bytes} (algorithm : header.alg = Header.hs256)
    (plain : header.enc = none) (isSecret : SigningSecret ring header signingKey secret)
    {claims : Claims} (encodable : claims.Encodable) (issuer : TokenService) (issued now : Instant) :
    service.verifyPlain ring
        (signedToken header (encodeClaims (issuer.stamp claims issued)) secret) signingKey now =
      service.verdict (issuer.stamp claims issued) now := by
  have opened := openEnvelope_eq_ok_iff.2 (authentic_of_secret
    (encodeClaims (issuer.stamp claims issued)) algorithm isSecret)
  rw [verifyPlain, opened, ok_bind]
  simp only [Header.isEncrypted, plain, Option.isSome_none, Bool.false_eq_true, if_false,
    payload_writtenEnvelope, ok_bind]
  exact service.acceptClaims_encodeClaims encodable issuer issued now

theorem verifyPlain_signedToken (service : TokenService) {ring : KeyRing} {key : Key}
    (known : ring.signing.all.find? key.id = some key) {claims : Claims}
    (encodable : claims.Encodable) (issuer : TokenService) (issued now : Instant) :
    service.verifyPlain ring (signedToken (named .plain key)
        (encodeClaims (issuer.stamp claims issued)) key.secret) none now =
      service.verdict (issuer.stamp claims issued) now :=
  service.verifyPlain_of_secret rfl rfl
    (.named (.inl rfl) rfl (Uuid.read_text key.id) known) encodable issuer issued now

end Bearer.TokenService
