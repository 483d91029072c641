import Bearer.Proofs.Crypto.Seal
import Bearer.Proofs.Run
import Bearer.Proofs.Token.Authentication
import Bearer.Proofs.Token.Issue
/-!
# Keys of the caller's own

* `Detached`: calls that are answered alike by every ring, on whatever store, and change nothing.
  Those with keys of the caller's own are of this kind.
* `Portable`: a token that has been signed under such a key is good wherever that key is given, and
  malformed where none is.
* `explicit_keys_stand_alone`: both for all four calls, and that an empty key is none.
-/

namespace Bearer.TokenService

/-- Whoever is called answers this, and leaves ring, store and trail as they are. -/
def Detached {α : Type} (call : (σ : Type) → [KeyStore σ] → KeeperM σ α) (answer : Except Error α) :
    Prop :=
  ∀ (σ : Type) [KeyStore σ] (keeper : Keeper σ), perform (call σ) keeper = (answer, keeper)

section Calls

variable (service : TokenService) {secret key : Bytes}

theorem explicit_own (filled : secret ≠ []) : explicit (some secret) = some secret :=
  explicit_eq_some_iff.2 ⟨rfl, filled⟩

/-! ## Signing -/

theorem detached_signPlain (filled : secret ≠ []) (claims : Claims) (now : Instant)
    (entropy : Entropy) :
    Detached (fun _ _ => service.signPlain claims (some secret) now entropy)
      (.ok (signedToken .plain (encodeClaims (service.stamp claims now)) secret)) := by
  intro σ _ keeper
  simp only [signPlain, sealEnvelope, explicit_own filled, perform_pure]

def sealedAnswer (claims : Claims) (key secret : Bytes) (now : Instant) (draw : Drawn Nonce) :
    Except Error String := do
  let sealed ← (sealText (encodeClaims (service.stamp claims now)) key draw).mapError sealError
  return signedToken .encrypted sealed secret

theorem detached_signEncrypted (filledKey : key ≠ []) (filled : secret ≠ []) (claims : Claims)
    (now : Instant) (entropy : Entropy) :
    Detached (fun _ _ => service.signEncrypted claims (some key) (some secret) now entropy)
      (service.sealedAnswer claims key secret now entropy.payload) := by
  intro σ _ keeper
  simp only [signEncrypted, sealEnvelope, explicit_own filled, explicit_own filledKey, pure_bind,
    sealedAnswer]
  cases sealText (encodeClaims (service.stamp claims now)) key entropy.payload with
  | error fault => rw [mapError_error, perform_error_bind, error_bind]
  | ok sealed =>
      rw [mapError_ok, perform_ok_bind, ok_bind]
      rfl

/-! ## Verifying -/

theorem openEnvelope_own (filled : secret ≠ []) (ring other : KeyRing) (token : String) :
    openEnvelope ring token (some secret) = openEnvelope other token (some secret) := by
  simp only [openEnvelope, verificationSecret, explicit_own filled]

theorem detached_verifyPlain (filled : secret ≠ []) (token : String) (now : Instant) :
    Detached (fun σ _ => do service.verifyPlain (← get : Keeper σ).ring token (some secret) now)
      (service.verifyPlain .empty token (some secret) now) := by
  intro σ _ keeper
  rw [perform_get_bind, perform_lift, verifyPlain, openEnvelope_own filled keeper.ring .empty,
    verifyPlain]

def openedAnswer (token : String) (key secret : Bytes) (now : Instant) : Except Error Claims := do
  let (header, envelope) ← openEnvelope .empty token (some secret)
  let sealed ← sealedPayload header envelope
  let plaintext ← (openSealed sealed key).mapError openError
  service.acceptClaims plaintext now

theorem detached_verifyEncrypted (filledKey : key ≠ []) (filled : secret ≠ []) (token : String)
    (now : Instant) (entropy : Entropy) :
    Detached (fun _ _ => service.verifyEncrypted token (some key) (some secret) now entropy)
      (service.openedAnswer token key secret now) := by
  intro σ _ keeper
  simp only [verifyEncrypted_eq, unwrap, openedAnswer, explicit_own filledKey,
    openEnvelope_own filled keeper.ring .empty]
  cases openEnvelope .empty token (some secret) with
  | error fault => rfl
  | ok pair =>
      simp only [ok_bind]
      cases sealedPayload pair.1 pair.2 <;> rfl

end Calls

/-! ## Tokens -/

/-- With the keys that it was made with, the token is answered with the claims as they were stamped, or
with what is wrong with their expiry. It names no key, so that it is malformed where none is given. -/
structure Portable (token : String) (issued : Claims)
    (verify : TokenService → Instant → Entropy → (σ : Type) → [KeyStore σ] → KeeperM σ Claims) :
    Prop where
  read (verifier : TokenService) (instant : Instant) (entropy : Entropy) :
    Detached (verify verifier instant entropy) (verifier.verdict issued instant)
  unnamed (ring : KeyRing) {signingKey : Option Bytes}
    (absent : signingKey = none ∨ signingKey = some []) :
    Refused ring token signingKey (.malformedToken .missingKeyId)

theorem refused_signedToken {header : Header} (algorithm : header.alg = Header.hs256)
    (unnamed : header.kid = none) (payload secret : Bytes) (ring : KeyRing)
    {signingKey : Option Bytes} (absent : signingKey = none ∨ signingKey = some []) :
    Refused ring (signedToken header payload secret) signingKey (.malformedToken .missingKeyId) := by
  have cut := split_writtenToken (Utf8.encode header.toJson.compact) payload secret
  have read : (writtenEnvelope (Utf8.encode header.toJson.compact) payload secret).header =
      .ok header := Envelope.header_eq_ok_iff.2 ⟨_, rfl, Header.read_compact header⟩
  apply refused_of_openEnvelope
  rw [signedToken_eq]
  simp only [openEnvelope, cut, read, ok_bind, algorithm, ne_eq, not_true_eq_false, if_false,
    verificationSecret, explicit_eq_none_iff.2 absent, unnamed]
  rfl

theorem portable_plain {secret : Bytes} (filled : secret ≠ []) (issuer : TokenService)
    {claims : Claims} (encodable : claims.Encodable) (now : Instant) :
    Portable (signedToken .plain (encodeClaims (issuer.stamp claims now)) secret)
      (issuer.stamp claims now) fun verifier instant _ σ _ => do
        verifier.verifyPlain (← get : Keeper σ).ring
          (signedToken .plain (encodeClaims (issuer.stamp claims now)) secret) (some secret)
          instant where
  read verifier instant _ := by
    have own : SigningSecret .empty .plain (some secret) secret := .own filled
    rw [← verifier.verifyPlain_of_secret rfl rfl own encodable issuer now instant]
    exact verifier.detached_verifyPlain filled _ instant
  unnamed ring _ absent := refused_signedToken rfl rfl _ secret ring absent

theorem portable_encrypted {secret key sealed : Bytes} (filled : secret ≠ []) (issuer : TokenService)
    {claims : Claims} (encodable : claims.Encodable) {now : Instant} {nonce : Drawn Nonce}
    (sealedOk : sealText (encodeClaims (issuer.stamp claims now)) key nonce = .ok sealed) :
    Portable (signedToken .encrypted sealed secret) (issuer.stamp claims now)
      fun verifier instant entropy _ _ => verifier.verifyEncrypted
        (signedToken .encrypted sealed secret) (some key) (some secret) instant entropy where
  read verifier instant entropy := by
    have length := (sealText_eq_ok_iff.1 sealedOk).1
    have filledKey : key ≠ [] := List.ne_nil_of_length_pos (length ▸ Nat.zero_lt_succ 31)
    have own : SigningSecret .empty .encrypted (some secret) secret := .own filled
    have opened := openEnvelope_eq_ok_iff.2 (authentic_of_secret sealed rfl own)
    have payload := sealedPayload_eq_ok_iff.2 ⟨(rfl : Header.encrypted.enc = _),
      payload_writtenEnvelope (Utf8.encode Header.encrypted.toJson.compact) sealed secret,
      nonceLength_le_of_sealText sealedOk⟩
    have answer : verifier.openedAnswer (signedToken .encrypted sealed secret) key secret instant =
        verifier.verdict (issuer.stamp claims now) instant := by
      simp only [openedAnswer, opened, payload, openSealed_of_sealText sealedOk, mapError_ok, ok_bind]
      exact verifier.acceptClaims_encodeClaims encodable issuer now instant
    rw [← answer]
    exact verifier.detached_verifyEncrypted filledKey filled _ instant entropy
  unnamed ring _ absent := refused_signedToken rfl rfl sealed secret ring absent

/-! ## All four calls -/

structure EmptyIsNone (service : TokenService) : Prop where
  signPlain (σ : Type) [KeyStore σ] (claims : Claims) (now : Instant) (entropy : Entropy) :
    (service.signPlain claims (some []) now entropy : KeeperM σ String) =
      service.signPlain claims none now entropy
  verifyPlain (ring : KeyRing) (token : String) (now : Instant) :
    service.verifyPlain ring token (some []) now = service.verifyPlain ring token none now
  signEncrypted (σ : Type) [KeyStore σ] (claims : Claims) (other : Option Bytes) (now : Instant)
    (entropy : Entropy) :
    (service.signEncrypted claims (some []) other now entropy : KeeperM σ String) =
        service.signEncrypted claims none other now entropy ∧
      (service.signEncrypted claims other (some []) now entropy : KeeperM σ String) =
        service.signEncrypted claims other none now entropy
  verifyEncrypted (σ : Type) [KeyStore σ] (token : String) (other : Option Bytes) (now : Instant)
    (entropy : Entropy) :
    (service.verifyEncrypted token (some []) other now entropy : KeeperM σ Claims) =
        service.verifyEncrypted token none other now entropy ∧
      (service.verifyEncrypted token other (some []) now entropy : KeeperM σ Claims) =
        service.verifyEncrypted token other none now entropy

theorem emptyIsNone (service : TokenService) : EmptyIsNone service where
  signPlain _ _ _ _ _ := rfl
  verifyPlain _ _ _ := rfl
  signEncrypted _ _ _ _ _ _ := ⟨rfl, rfl⟩
  verifyEncrypted _ _ _ _ _ _ := ⟨rfl, rfl⟩

/-- Let the caller give keys of its own. Then any two services of one domain and policy sign alike at
one time, and verify alike, whatever their rings and stores are; only the nonce makes a difference to an
encrypted token. No such call changes anything. A claim set that is too long for the cipher is refused
alike, as is any for which no nonce can be drawn; any other becomes a token that all who are given its
keys can read, and nobody without a key. -/
theorem explicit_keys_stand_alone (domain : String) (policy : TokenPolicy) {claims : Claims}
    (encodable : claims.Encodable) {secret key : Bytes} (filled : secret ≠ [])
    (length : key.length = keyLength) (now : Instant) :
    let service := ofDomain domain policy
    let issued : Claims := { claims with
      iss := some ("https://" ++ domain)
      iat := some (claims.iat.getD now.second) }
    (∃ token,
      (∀ entropy, Detached (fun _ _ => service.signPlain claims (some secret) now entropy)
        (.ok token)) ∧
      Portable token issued fun verifier instant _ σ _ => do
        verifier.verifyPlain (← get : Keeper σ).ring token (some secret) instant) ∧
    (∀ draw, ∃ outcome,
      (∀ entropy, entropy.payload = draw → Detached (fun _ _ =>
        service.signEncrypted claims (some key) (some secret) now entropy) outcome) ∧
      (∀ nonce, draw = .ok nonce → (encodeClaims issued).length ≤ Gcm.maxTextLength →
        ∃ token, outcome = .ok token) ∧
      ∀ token, outcome = .ok token → Portable token issued fun verifier instant entropy _ _ =>
        verifier.verifyEncrypted token (some key) (some secret) instant entropy) ∧
    (∀ token, ∃ plain encrypted,
      Detached (fun σ _ => do
        service.verifyPlain (← get : Keeper σ).ring token (some secret) now) plain ∧
      ∀ entropy, Detached (fun _ _ =>
        service.verifyEncrypted token (some key) (some secret) now entropy) encrypted) ∧
    EmptyIsNone service := by
  intro service issued
  have filledKey : key ≠ [] := List.ne_nil_of_length_pos (length ▸ Nat.zero_lt_succ 31)
  refine ⟨⟨_, service.detached_signPlain filled claims now,
    portable_plain filled service encodable now⟩, fun draw => ?_, fun token => ?_,
    service.emptyIsNone⟩
  · refine ⟨service.sealedAnswer claims key secret now draw, ?_, ?_, fun token done => ?_⟩
    · rintro entropy rfl
      exact service.detached_signEncrypted filledKey filled claims now entropy
    · rintro nonce rfl short
      obtain ⟨sealed, sealedOk⟩ := exists_sealText length short nonce
      refine ⟨signedToken .encrypted sealed secret, ?_⟩
      rw [sealedAnswer, show encodeClaims (service.stamp claims now) = encodeClaims issued from rfl,
        sealedOk]
      rfl
    · simp only [sealedAnswer, bind_eq_ok, mapError_eq_ok, pure_eq_ok] at done
      obtain ⟨sealed, sealedOk, rfl⟩ := done
      exact portable_encrypted filled service encodable sealedOk
  · exact ⟨_, _, service.detached_verifyPlain filled token now,
      service.detached_verifyEncrypted filledKey filled token now⟩

theorem own_keys_cross_services :
    let service := ofDomain "example.org" ⟨false⟩
    let key : Bytes := List.replicate keyLength 9
    let signer : Keeper MemoryStore := ⟨.empty, .empty, []⟩
    let reader : Keeper MemoryStore := ⟨.empty, ⟨[], [], true, true⟩, []⟩
    ([7] : Bytes) ≠ [] ∧ key.length = keyLength ∧ ∃ token,
      perform (service.signEncrypted .empty (some key) (some [7]) .epoch (sampleEntropy 1)) signer =
        (.ok token, signer) ∧
      perform (service.verifyEncrypted token (some key) (some [7]) (sampleYear 1) (sampleEntropy 2))
        reader = (.ok ⟨some "https://example.org", some 0, none, []⟩, reader) ∧
      Refused .empty token none (.malformedToken .missingKeyId) := by
  intro service key signer reader
  have filled : ([7] : Bytes) ≠ [] := by decide
  have length : key.length = keyLength := List.length_replicate
  obtain ⟨-, encrypted, -⟩ :=
    explicit_keys_stand_alone "example.org" ⟨false⟩ Claims.encodable_empty filled length .epoch
  obtain ⟨outcome, signs, fits, portable⟩ := encrypted (sampleEntropy 1).payload
  obtain ⟨token, rfl⟩ := fits _ rfl (by decide)
  obtain ⟨read, unnamed⟩ := portable token rfl
  exact ⟨filled, length, token, signs _ rfl MemoryStore signer,
    read service (sampleYear 1) (sampleEntropy 2) MemoryStore reader, unnamed .empty (.inl rfl)⟩

end Bearer.TokenService
