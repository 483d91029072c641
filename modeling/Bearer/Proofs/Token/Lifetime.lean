import Bearer.Proofs.Key.Request
import Bearer.Proofs.Token.Claims
import Bearer.Proofs.Token.Encrypted
import Bearer.Proofs.Token.Explicit
/-!
# The lifetime of tokens

* `Lasting`: a payload whose expiry is not over, or that has none where none is needed.
* `verifyPlain_lasting`, `verifyEncrypted_lasting`: what is accepted has such a payload.
* `verifyPlain_expired`: a plain token that has expired stays expired.
* `expiry_respected`: all this, and that a payload with a spoiled expiry is never accepted.
-/

namespace Bearer.TokenService

open Json Json.Reader Keeper

/-! ## Payloads -/

def payloadOf (token : String) : Except Error Bytes := do
  (← Envelope.split token).payload

/-- The secret under which a sealed payload is opened: the caller's own, or else that of a key in the
slots. -/
inductive OpeningSecret (ring : KeyRing) : Option Bytes → Bytes → Prop where
  | own {secret : Bytes} (given : secret ≠ []) : OpeningSecret ring (some secret) secret
  | slotted {encryptionKey : Option Bytes} {key : Key}
      (absent : encryptionKey = none ∨ encryptionKey = some []) (there : ring.Slotted key) :
      OpeningSecret ring encryptionKey key.secret

structure Lasting (service : TokenService) (payload : Bytes) (claims : Claims) (now : Instant) :
    Prop where
  text : Claims.ExpiryText payload claims.exp
  admitted : service.Admits claims now

theorem lasting_of_acceptClaims {service : TokenService} {payload : Bytes} {claims : Claims}
    {now : Instant} (accepted : service.acceptClaims payload now = .ok claims) :
    service.Lasting payload claims now := by
  obtain ⟨read, admitted⟩ := acceptClaims_eq_ok_iff.1 accepted
  exact ⟨Claims.expiryText_of_read read, admitted⟩

/-! ## Plain tokens -/

section Plain

variable {service : TokenService} {ring : KeyRing} {token : String} {signingKey : Option Bytes}
  {now : Instant}

theorem verifyPlain_lasting {claims : Claims}
    (accepted : service.verifyPlain ring token signingKey now = .ok claims) :
    ∃ payload, payloadOf token = .ok payload ∧ service.Lasting payload claims now := by
  obtain ⟨header, envelope, payload, authentic, -, decoded, read, admitted⟩ :=
    verifyPlain_eq_ok_iff.1 accepted
  refine ⟨payload, ?_, Claims.expiryText_of_read read, admitted⟩
  rw [payloadOf, authentic.cut, ok_bind]
  exact Envelope.decode_eq_ok_iff_segment.2 decoded

theorem checkExpiry_eq_expired_iff {claims : Claims} :
    service.checkExpiry claims now = .error .expired ↔
      ∃ second, claims.exp = some second ∧ second < now.second := by
  unfold checkExpiry Claims.isExpired
  cases claims.exp with
  | none => cases service.policy.requireExpiry <;> simp
  | some second => simp

theorem acceptClaims_eq_expired_iff {payload : Bytes} :
    service.acceptClaims payload now = .error .expired ↔
      ∃ claims second, Claims.read payload = .ok claims ∧ claims.exp = some second ∧
        second < now.second := by
  unfold acceptClaims decodeClaims
  cases Claims.read payload with
  | error fault => simp
  | ok claims =>
      rw [mapError_ok, ok_bind]
      have checked := @checkExpiry_eq_expired_iff service now claims
      cases check : service.checkExpiry claims now with
      | error fault => simpa [check] using checked
      | ok done => simpa [check] using checked

theorem openEnvelope_congr {other : KeyRing}
    (same : ∀ id, other.signing.all.find? id = ring.signing.all.find? id) (token : String)
    (signingKey : Option Bytes) :
    openEnvelope other token signingKey = openEnvelope ring token signingKey := by
  simp only [openEnvelope, verificationSecret, KeyRing.signingKey, same]

theorem verifyPlain_expired {other : KeyRing} {later : Instant}
    (same : ∀ id, other.signing.all.find? id = ring.signing.all.find? id) (le : now ≤ later)
    (expired : service.verifyPlain ring token signingKey now = .error .expired)
    (verifier : TokenService) :
    verifier.verifyPlain other token signingKey later = .error .expired := by
  rw [verifyPlain] at expired ⊢
  rw [openEnvelope_congr same]
  cases opened : openEnvelope ring token signingKey with
  | error fault =>
      rw [opened] at expired
      exact expired
  | ok pair =>
      obtain ⟨header, envelope⟩ := pair
      simp only [opened, ok_bind] at expired ⊢
      cases encrypted : header.isEncrypted with
      | true => simp [encrypted] at expired
      | false =>
          simp only [encrypted, Bool.false_eq_true, if_false] at expired ⊢
          cases decoded : envelope.payload with
          | error fault =>
              rw [decoded] at expired
              exact expired
          | ok payload =>
              rw [decoded] at expired
              obtain ⟨claims, second, read, exp, late⟩ := acceptClaims_eq_expired_iff.1 expired
              have stillLate := Int.lt_of_lt_of_le late (Instant.second_le_of_le le)
              exact acceptClaims_eq_expired_iff.2 ⟨claims, second, read, exp, stillLate⟩

end Plain

/-! ## Encrypted tokens -/

section Encrypted

variable {σ : Type} [KeyStore σ]

theorem verifyEncrypted_lasting {service : TokenService} {keeper after : Keeper σ} {token : String}
    {encryptionKey signingKey : Option Bytes} {now : Instant} {entropy : Entropy} {claims : Claims}
    (accepted : perform (service.verifyEncrypted token encryptionKey signingKey now entropy)
      keeper = (.ok claims, after)) :
    ∃ sealed secret payload, payloadOf token = .ok sealed ∧
      OpeningSecret after.ring encryptionKey secret ∧ openSealed sealed secret = .ok payload ∧
      service.Lasting payload claims now := by
  rw [verifyEncrypted_eq] at accepted
  cases read : unwrap keeper.ring token signingKey with
  | error fault => simp [read] at accepted
  | ok sealed =>
      have payload : payloadOf token = .ok sealed := by
        obtain ⟨header, envelope, authentic, -, decoded, -⟩ := unwrap_eq_ok_iff.1 read
        rw [payloadOf, authentic.cut, ok_bind, decoded]
      cases given : explicit encryptionKey with
      | some secret =>
          simp only [read, given, Prod.mk.injEq, bind_eq_ok] at accepted
          obtain ⟨⟨text, opens, accepted⟩, rfl⟩ := accepted
          obtain ⟨rfl, filled⟩ := explicit_eq_some_iff.1 given
          exact ⟨sealed, secret, text, payload, .own filled, mapError_eq_ok.1 opens,
            lasting_of_acceptClaims accepted⟩
      | none =>
          simp only [read, given, openWithRing, perform_bind_eq_ok, perform_get_bind, perform_lift,
            Prod.mk.injEq] at accepted
          obtain ⟨text, _, ⟨current, _, asked, opens, rfl⟩, accepted, rfl⟩ := accepted
          obtain ⟨key, slotted, opens⟩ :=
            opened_of_openWithKeys (currentEncryptionKey_step asked).current opens
          exact ⟨sealed, key.secret, text, payload,
            .slotted (explicit_eq_none_iff.1 given) slotted, opens,
            lasting_of_acceptClaims accepted⟩

end Encrypted

/-! ## Both verifiers -/

def Spoiled (payload : Bytes) : Prop :=
  ∃ members, ObjectText payload members ∧ Claims.Spoils (valuesOf "exp" members)

theorem not_lasting_of_spoiled {service : TokenService} {payload : Bytes} (spoiled : Spoiled payload)
    (claims : Claims) (now : Instant) : ¬service.Lasting payload claims now := by
  obtain ⟨members, form, spoils⟩ := spoiled
  exact fun lasting => Claims.not_expiryText form spoils claims.exp lasting.text

/-- Whatever keys are given, and whatever the ring, its store and its trail are: a token that is
accepted has a payload that is one object and that says of the expiry what is answered, and this is
not over, or there is none and the policy needs none. Tokens whose payload has a spoiled expiry are
not accepted. A plain token that has expired stays so, by the clock of every verifier that knows the
same signing keys. -/
theorem expiry_respected (service : TokenService) (token : String) (signingKey : Option Bytes)
    (now : Instant) :
    (∀ ring claims, service.verifyPlain ring token signingKey now = .ok claims →
      ∃ payload, payloadOf token = .ok payload ∧ service.Lasting payload claims now) ∧
    (∀ (σ : Type) [KeyStore σ] (keeper after : Keeper σ) (encryptionKey : Option Bytes)
      (entropy : Entropy) (claims : Claims),
      perform (service.verifyEncrypted token encryptionKey signingKey now entropy) keeper =
        (.ok claims, after) →
      ∃ sealed secret payload, payloadOf token = .ok sealed ∧
        OpeningSecret after.ring encryptionKey secret ∧ openSealed sealed secret = .ok payload ∧
        service.Lasting payload claims now) ∧
    (∀ payload, payloadOf token = .ok payload →
      (Spoiled payload → ∀ ring claims,
        service.verifyPlain ring token signingKey now ≠ .ok claims) ∧
      ∀ (σ : Type) [KeyStore σ] (keeper after : Keeper σ) (encryptionKey : Option Bytes)
        (entropy : Entropy) (claims : Claims),
        (∀ secret text, OpeningSecret after.ring encryptionKey secret →
          openSealed payload secret = .ok text → Spoiled text) →
        perform (service.verifyEncrypted token encryptionKey signingKey now entropy) keeper ≠
          (.ok claims, after)) ∧
    ∀ ring other later, now ≤ later →
      (∀ id, other.signing.all.find? id = ring.signing.all.find? id) →
      service.verifyPlain ring token signingKey now = .error .expired →
      ∀ verifier : TokenService,
        verifier.verifyPlain other token signingKey later = .error .expired := by
  refine ⟨fun ring claims accepted => verifyPlain_lasting accepted, ?_, ?_, ?_⟩
  · intro σ _ keeper after encryptionKey entropy claims accepted
    exact verifyEncrypted_lasting accepted
  · intro payload isPayload
    constructor
    · intro spoiled ring claims accepted
      obtain ⟨other, isOther, lasting⟩ := verifyPlain_lasting accepted
      obtain rfl := Except.ok.inj (isPayload.symm.trans isOther)
      exact not_lasting_of_spoiled spoiled claims now lasting
    · intro σ _ keeper after encryptionKey entropy claims spoiled accepted
      obtain ⟨other, secret, text, isOther, isSecret, opens, lasting⟩ :=
        verifyEncrypted_lasting accepted
      obtain rfl := Except.ok.inj (isPayload.symm.trans isOther)
      exact not_lasting_of_spoiled (spoiled secret text isSecret opens) claims now lasting
  · intro ring other later le same expired verifier
    exact verifyPlain_expired same le expired verifier

def nullExpiry : Bytes := Utf8.encode "\x7b\"exp\":null\x7d"

theorem spoiled_nullExpiry : Spoiled nullExpiry := by
  let word : Bytes := [110, 117, 108, 108]
  have text : nullExpiry =
      openBrace :: quote :: (quotedBytes "exp" ++ colon :: (word ++ [closeBrace])) := by
    decide
  have name := quotedText_eq_ok_iff.1 (quotedText_read "exp" (colon :: (word ++ [closeBrace])))
  have null : ValueText (maxDepth - 1) (word ++ [closeBrace]) .null [closeBrace] :=
    (PlainText.null [closeBrace]).valueText _
  have member := MemberText.intro name (.refl _) (.refl _) null
  refine ⟨[("exp", .null)], ?_, fun second isTime => nomatch isTime.1⟩
  rw [text]
  exact .intro (.refl _) (.first (.refl _) member (.close false (.refl _))) blank_nil

theorem token_runs_out :
    let service := ofDomain "example.org" ⟨true⟩
    let claims := service.stamp (Claims.empty.expiresAt .epoch) .epoch
    let plain := signedToken .plain (encodeClaims claims) [7]
    let timeless := signedToken .plain nullExpiry [7]
    let key : Bytes := List.replicate keyLength 9
    let keeper : Keeper MemoryStore := ⟨.empty, .empty, []⟩
    (∃ payload, payloadOf plain = .ok payload ∧ service.Lasting payload claims .epoch) ∧
      (∃ encrypted sealed payload,
        perform (service.verifyEncrypted encrypted (some key) (some [7]) .epoch (sampleEntropy 2))
          keeper = (.ok claims, keeper) ∧
        payloadOf encrypted = .ok sealed ∧ openSealed sealed key = .ok payload ∧
          service.Lasting payload claims .epoch) ∧
      (Spoiled nullExpiry ∧
        service.verifyPlain .empty timeless (some [7]) .epoch ≠ .ok .empty) ∧
      service.verifyPlain .empty plain (some [7]) (sampleYear 2) = .error .expired := by
  intro service claims plain timeless key keeper
  have filled : ([7] : Bytes) ≠ [] := by decide
  have encodable := Claims.encodable_empty.expiresAt .epoch
  have verdict (now : Instant) : service.verifyPlain .empty plain (some [7]) now =
      service.verdict claims now :=
    service.verifyPlain_of_secret rfl rfl (.own filled) encodable service .epoch now
  refine ⟨?_, ?_, ⟨spoiled_nullExpiry, ?_⟩, ?_⟩
  · have accepted : service.verifyPlain .empty plain (some [7]) .epoch = .ok claims := verdict .epoch
    exact (expiry_respected service plain (some [7]) .epoch).1 .empty claims accepted
  · have length : key.length = keyLength := List.length_replicate
    have short : (encodeClaims claims).length ≤ Gcm.maxTextLength := by decide
    obtain ⟨sealed, sealedOk⟩ := exists_sealText length short (sampleNonce 1)
    have portable := portable_encrypted filled service encodable sealedOk
    have accepted := portable.read service .epoch (sampleEntropy 2) MemoryStore keeper
    have respected := expiry_respected service (signedToken .encrypted sealed [7]) (some [7]) .epoch
    obtain ⟨inner, secret, payload, isPayload, opening, opens, lasting⟩ :=
      respected.2.1 MemoryStore keeper keeper (some key) (sampleEntropy 2) claims accepted
    cases opening with
    | own => exact ⟨_, inner, payload, accepted, isPayload, opens, lasting⟩
    | slotted absent => simp [key, keyLength] at absent
  · have payload : payloadOf timeless = .ok nullExpiry := by
      simp only [timeless, payloadOf, signedToken_eq, split_writtenToken, ok_bind,
        payload_writtenEnvelope]
    exact ((expiry_respected service timeless (some [7]) .epoch).2.2.1 _ payload).1
      spoiled_nullExpiry .empty .empty
  · have expired : service.verifyPlain .empty plain (some [7]) (sampleYear 1) = .error .expired :=
      verdict (sampleYear 1)
    exact (expiry_respected service plain (some [7]) (sampleYear 1)).2.2.2 .empty .empty
      (sampleYear 2) (by decide) (fun _ => rfl) expired service

end Bearer.TokenService
