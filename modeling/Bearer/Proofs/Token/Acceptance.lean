import Bearer.Proofs.Token.Envelope
import Bearer.Token.Service
/-!
# Which tokens are accepted

* `openEnvelope_eq_ok_iff`: a token passes the check of its signature exactly when it is authentic:
  its third segment is the written form of the MAC of the first two, under the secret that the
  caller gives or the header names.
* `verifyPlain_eq_ok_iff`: the claims of a plain token.
* `verifyEncrypted_eq`: what is done with an encrypted token that has passed it.
* `accepted_language`: the texts of all accepted plain tokens, what becomes of one whose signature
  is replaced, and that none of them is an encrypted token too.
-/

namespace Bearer.TokenService

/-! ## Secrets -/

theorem explicit_none : explicit none = none := rfl

theorem explicit_eq_none_iff {key : Option Bytes} :
    explicit key = none ↔ key = none ∨ key = some [] := by
  rcases key with _ | _ | ⟨byte, rest⟩ <;> simp [explicit]

theorem explicit_eq_some_iff {key : Option Bytes} {secret : Bytes} :
    explicit key = some secret ↔ key = some secret ∧ secret ≠ [] := by
  rcases key with _ | _ | ⟨byte, rest⟩ <;> simp [explicit]

/-- The secret under which a token with this header has to be signed: the caller's own, or else that
of the key of the ring that the header names. -/
inductive SigningSecret (ring : KeyRing) (header : Header) : Option Bytes → Bytes → Prop where
  | own {secret : Bytes} (given : secret ≠ []) : SigningSecret ring header (some secret) secret
  | named {signingKey : Option Bytes} {kid : String} {id : Uuid} {key : Key}
      (absent : signingKey = none ∨ signingKey = some []) (hasKid : header.kid = some kid)
      (read : Uuid.read kid = .ok id) (known : ring.signing.all.find? id = some key) :
      SigningSecret ring header signingKey key.secret

theorem signingKey_eq_ok_iff {ring : KeyRing} {id : Uuid} {key : Key} :
    ring.signingKey id = .ok key ↔ ring.signing.all.find? id = some key := by
  unfold KeyRing.signingKey
  cases ring.signing.all.find? id <;> simp

theorem verificationSecret_eq_ok_iff {ring : KeyRing} {header : Header} {signingKey : Option Bytes}
    {secret : Bytes} : verificationSecret ring header signingKey = .ok secret ↔
      SigningSecret ring header signingKey secret := by
  constructor
  · intro found
    unfold verificationSecret at found
    cases given : explicit signingKey with
    | some own =>
        rw [given] at found
        cases found
        obtain ⟨rfl, filled⟩ := explicit_eq_some_iff.1 given
        exact .own filled
    | none =>
        rw [given] at found
        cases hasKid : header.kid with
        | none =>
            rw [hasKid] at found
            cases found
        | some kid =>
            simp only [hasKid, bind_eq_ok, pure_eq_ok, mapError_eq_ok, signingKey_eq_ok_iff] at found
            obtain ⟨id, read, key, known, rfl⟩ := found
            exact .named (explicit_eq_none_iff.1 given) hasKid read known
  · rintro (filled | ⟨absent, hasKid, read, known⟩)
    · simp only [verificationSecret, explicit_eq_some_iff.2 ⟨rfl, filled⟩]
    · simp only [verificationSecret, explicit_eq_none_iff.2 absent, hasKid, read, mapError_ok,
        ok_bind, signingKey_eq_ok_iff.2 known]
      rfl

/-! ## Authentic tokens -/

def macSegment (envelope : Envelope) (secret : Bytes) : String :=
  encodeSegment (Hmac.sign (Utf8.encode envelope.signingInput) secret)

/-- The token has this header and these segments, and the last segment is the MAC of the others
under the secret that the caller gives or the header names. -/
structure Authentic (ring : KeyRing) (token : String) (signingKey : Option Bytes) (header : Header)
    (envelope : Envelope) : Prop where
  cut : Envelope.split token = .ok envelope
  read : envelope.header = .ok header
  algorithm : header.alg = Header.hs256
  signed : ∃ secret, SigningSecret ring header signingKey secret ∧
    envelope.signature64 = macSegment envelope secret

theorem openEnvelope_eq_ok_iff {ring : KeyRing} {token : String} {signingKey : Option Bytes}
    {header : Header} {envelope : Envelope} :
    openEnvelope ring token signingKey = .ok (header, envelope) ↔
      Authentic ring token signingKey header envelope := by
  constructor
  · intro opened
    simp only [openEnvelope, bind_eq_ok] at opened
    obtain ⟨cut, cutOk, read, readOk, rest⟩ := opened
    split at rest
    · cases rest
    · next algorithm =>
        simp only [bind_eq_ok, mapError_eq_ok, verificationSecret_eq_ok_iff] at rest
        obtain ⟨secret, isSecret, signature, decoded, checked⟩ := rest
        by_cases verified : Hmac.verify (Utf8.encode cut.signingInput) signature secret = true
        · rw [if_pos verified, pure_eq_ok, Prod.mk.injEq] at checked
          obtain ⟨rfl, rfl⟩ := checked
          rw [Hmac.verify_eq_true_iff] at verified
          rw [Envelope.signature, Envelope.decode_eq_ok_iff_segment, verified] at decoded
          exact ⟨cutOk, readOk, not_not.1 algorithm, secret, isSecret, decoded⟩
        · rw [if_neg verified] at checked
          cases checked
  · rintro ⟨cut, read, algorithm, secret, isSecret, signed⟩
    have decoded : envelope.signature = .ok (Hmac.sign (Utf8.encode envelope.signingInput) secret) :=
      Envelope.decode_eq_ok_iff_segment.2 signed
    have verified : Hmac.verify (Utf8.encode envelope.signingInput)
        (Hmac.sign (Utf8.encode envelope.signingInput) secret) secret = true :=
      (Hmac.verify_eq_true_iff _ _ _).2 rfl
    simp only [openEnvelope, cut, read, ok_bind, algorithm, ne_eq, not_true_eq_false, if_false,
      verificationSecret_eq_ok_iff.2 isSecret, decoded, mapError_ok, verified]
    rfl

/-! ## Accepted claims -/

def Admits (service : TokenService) (claims : Claims) (now : Instant) : Prop :=
  match claims.exp with
  | some exp => now.second ≤ exp
  | none => service.policy.requireExpiry = false

theorem checkExpiry_eq_ok_iff {service : TokenService} {claims : Claims} {now : Instant} :
    service.checkExpiry claims now = .ok () ↔ service.Admits claims now := by
  unfold checkExpiry Admits Claims.isExpired
  cases claims.exp with
  | some exp => simp
  | none => simp

theorem acceptClaims_eq_ok_iff {service : TokenService} {payload : Bytes} {now : Instant}
    {claims : Claims} : service.acceptClaims payload now = .ok claims ↔
      Claims.read payload = .ok claims ∧ service.Admits claims now := by
  simp only [acceptClaims, decodeClaims, bind_eq_ok, pure_eq_ok, mapError_eq_ok]
  constructor
  · rintro ⟨claims, read, ⟨⟩, admitted, rfl⟩
    exact ⟨read, checkExpiry_eq_ok_iff.1 admitted⟩
  · rintro ⟨read, admitted⟩
    exact ⟨claims, read, (), checkExpiry_eq_ok_iff.2 admitted, rfl⟩

theorem verifyPlain_eq_ok_iff {service : TokenService} {ring : KeyRing} {token : String}
    {signingKey : Option Bytes} {now : Instant} {claims : Claims} :
    service.verifyPlain ring token signingKey now = .ok claims ↔
      ∃ header envelope payload, Authentic ring token signingKey header envelope ∧
        header.enc = none ∧ envelope.payload64 = encodeSegment payload ∧
        Claims.read payload = .ok claims ∧ service.Admits claims now := by
  simp only [verifyPlain, bind_eq_ok, Prod.exists, openEnvelope_eq_ok_iff]
  constructor
  · rintro ⟨header, envelope, authentic, rest⟩
    cases encrypted : header.enc with
    | some enc => simp [Header.isEncrypted, encrypted] at rest
    | none =>
        simp only [Header.isEncrypted, encrypted, Option.isSome_none, Bool.false_eq_true, if_false,
          bind_eq_ok, acceptClaims_eq_ok_iff] at rest
        obtain ⟨payload, decoded, read, admitted⟩ := rest
        exact ⟨header, envelope, payload, authentic, encrypted,
          Envelope.decode_eq_ok_iff_segment.1 decoded, read, admitted⟩
  · rintro ⟨header, envelope, payload, authentic, plain, decoded, read, admitted⟩
    have payloadOk : envelope.payload = .ok payload := Envelope.decode_eq_ok_iff_segment.2 decoded
    refine ⟨header, envelope, authentic, ?_⟩
    simp only [Header.isEncrypted, plain, Option.isSome_none, Bool.false_eq_true, if_false, payloadOk,
      ok_bind]
    exact acceptClaims_eq_ok_iff.2 ⟨read, admitted⟩

/-! ## The texts of accepted tokens -/

def writtenToken (headerText payload secret : Bytes) : String :=
  let input := encodeSegment headerText ++ "." ++ encodeSegment payload
  input ++ "." ++ encodeSegment (Hmac.sign (Utf8.encode input) secret)

def writtenEnvelope (headerText payload secret : Bytes) : Envelope :=
  let input := encodeSegment headerText ++ "." ++ encodeSegment payload
  ⟨encodeSegment headerText, encodeSegment payload,
    encodeSegment (Hmac.sign (Utf8.encode input) secret)⟩

theorem token_writtenEnvelope (headerText payload secret : Bytes) :
    (writtenEnvelope headerText payload secret).token = writtenToken headerText payload secret := rfl

theorem split_writtenToken (headerText payload secret : Bytes) :
    Envelope.split (writtenToken headerText payload secret) =
      .ok (writtenEnvelope headerText payload secret) := by
  rw [← token_writtenEnvelope]
  exact Envelope.split_token
    ⟨dotFree_encodeSegment _, dotFree_encodeSegment _, dotFree_encodeSegment _⟩

theorem authentic_writtenToken {ring : KeyRing} {signingKey : Option Bytes} {header : Header}
    {headerText payload secret : Bytes} (read : Header.read headerText = .ok header)
    (algorithm : header.alg = Header.hs256) (isSecret : SigningSecret ring header signingKey secret) :
    Authentic ring (writtenToken headerText payload secret) signingKey header
      (writtenEnvelope headerText payload secret) where
  cut := split_writtenToken headerText payload secret
  read := Envelope.header_eq_ok_iff.2 ⟨headerText, rfl, read⟩
  algorithm
  signed := ⟨secret, isSecret, rfl⟩

theorem Authentic.eq_writtenToken {ring : KeyRing} {token : String} {signingKey : Option Bytes}
    {header : Header} {envelope : Envelope} {payload : Bytes}
    (authentic : Authentic ring token signingKey header envelope)
    (decoded : envelope.payload64 = encodeSegment payload) :
    ∃ headerText secret, Header.read headerText = .ok header ∧
      SigningSecret ring header signingKey secret ∧ token = writtenToken headerText payload secret := by
  obtain ⟨secret, isSecret, signed⟩ := authentic.signed
  obtain ⟨headerText, headerEq, read⟩ := Envelope.header_eq_ok_iff.1 authentic.read
  refine ⟨headerText, secret, read, isSecret, ?_⟩
  rw [(Envelope.split_eq_ok_iff.1 authentic.cut).1, Envelope.token, signed, macSegment,
    Envelope.signingInput, headerEq, decoded]
  rfl

theorem openEnvelope_resigned {ring : KeyRing} {token other : String} {signingKey : Option Bytes}
    {header : Header} {envelope : Envelope}
    (authentic : Authentic ring token signingKey header envelope) (free : DotFree other)
    (changed : other ≠ envelope.signature64) :
    openEnvelope ring { envelope with signature64 := other }.token signingKey =
      .error .invalidSignature := by
  have segmented := Envelope.segmented_of_split authentic.cut
  obtain ⟨secret, isSecret, signed⟩ := authentic.signed
  let forged : Envelope := { envelope with signature64 := other }
  have cut : Envelope.split forged.token = .ok forged :=
    Envelope.split_token ⟨segmented.header, segmented.payload, free⟩
  have read : forged.header = .ok header := authentic.read
  change openEnvelope ring forged.token signingKey = _
  simp only [openEnvelope, cut, read, ok_bind, authentic.algorithm, ne_eq, not_true_eq_false,
    if_false, verificationSecret_eq_ok_iff.2 isSecret]
  cases decoded : forged.signature with
  | error fault => rfl
  | ok signature =>
      have wrong : ¬Hmac.verify (Utf8.encode forged.signingInput) signature secret = true := by
        rw [Hmac.verify_eq_true_iff]
        rintro rfl
        exact changed ((Envelope.decode_eq_ok_iff_segment.1 decoded).trans signed.symm)
      rw [mapError_ok, ok_bind, if_neg wrong]
      rfl

/-! ## Encrypted tokens -/

theorem sealedPayload_eq_ok_iff {header : Header} {envelope : Envelope} {sealed : Bytes} :
    sealedPayload header envelope = .ok sealed ↔ header.enc = some Header.a256gcm ∧
      envelope.payload = .ok sealed ∧ Gcm.nonceLength ≤ sealed.length := by
  unfold sealedPayload
  by_cases encrypted : header.enc = some Header.a256gcm
  · simp only [encrypted, ne_eq, not_true_eq_false, if_false, bind_eq_ok, true_and]
    constructor
    · rintro ⟨payload, decoded, long⟩
      split at long
      · cases long
      · next longEnough =>
          rw [pure_eq_ok] at long
          subst long
          exact ⟨decoded, Nat.not_lt.1 longEnough⟩
    · rintro ⟨decoded, long⟩
      exact ⟨sealed, decoded, by rw [if_neg (Nat.not_lt.2 long)]; rfl⟩
  · simp [encrypted]

/-- The sealed payload of a token whose signature has been checked. -/
def unwrap (ring : KeyRing) (token : String) (signingKey : Option Bytes) : Except Error Bytes := do
  let (header, envelope) ← openEnvelope ring token signingKey
  sealedPayload header envelope

theorem unwrap_eq_ok_iff {ring : KeyRing} {token : String} {signingKey : Option Bytes}
    {sealed : Bytes} : unwrap ring token signingKey = .ok sealed ↔
      ∃ header envelope, Authentic ring token signingKey header envelope ∧
        header.enc = some Header.a256gcm ∧ envelope.payload = .ok sealed ∧
        Gcm.nonceLength ≤ sealed.length := by
  simp only [unwrap, bind_eq_ok, Prod.exists, openEnvelope_eq_ok_iff, sealedPayload_eq_ok_iff]

variable {σ : Type} [KeyStore σ]

/-- Nothing but the ring is asked before the payload is there, and nothing is changed. -/
theorem verifyEncrypted_eq (service : TokenService) (token : String)
    (encryptionKey signingKey : Option Bytes) (now : Instant) (entropy : Entropy)
    (keeper : Keeper σ) :
    perform (service.verifyEncrypted token encryptionKey signingKey now entropy) keeper =
      match unwrap keeper.ring token signingKey with
      | .error fault => (.error fault, keeper)
      | .ok sealed =>
          match explicit encryptionKey with
          | some secret => ((openSealed sealed secret).mapError openError >>= fun text =>
              service.acceptClaims text now, keeper)
          | none => perform (do
              service.acceptClaims (← openWithRing sealed now entropy.encryptionKey) now)
                keeper := by
  rw [verifyEncrypted, perform_get_bind, unwrap]
  cases openEnvelope keeper.ring token signingKey with
  | error fault => rfl
  | ok pair =>
      obtain ⟨header, envelope⟩ := pair
      rw [perform_ok_bind, ok_bind]
      cases payload : sealedPayload header envelope with
      | error fault => simp only [payload, perform_error_bind]
      | ok sealed =>
          simp only [payload, perform_ok_bind]
          cases explicit encryptionKey with
          | none => rfl
          | some secret =>
              simp only
              cases (openSealed sealed secret).mapError openError <;> rfl

theorem authentic_of_verifyEncrypted {service : TokenService} {keeper : Keeper σ} {token : String}
    {encryptionKey signingKey : Option Bytes} {now : Instant} {entropy : Entropy} {claims : Claims}
    (accepted : (perform (service.verifyEncrypted token encryptionKey signingKey now entropy)
      keeper).1 = .ok claims) :
    ∃ header envelope, Authentic keeper.ring token signingKey header envelope ∧
      header.enc = some Header.a256gcm := by
  rw [verifyEncrypted_eq] at accepted
  cases read : unwrap keeper.ring token signingKey with
  | error fault => simp [read] at accepted
  | ok sealed =>
      obtain ⟨header, envelope, authentic, encrypted, -⟩ := unwrap_eq_ok_iff.1 read
      exact ⟨header, envelope, authentic, encrypted⟩

/-! ## The accepted language -/

/-- The plain tokens that are accepted, in three parts: what their text is; that another third
segment makes the signature invalid, for every verifier and at every time; and that no call, with
whatever keys and state, accepts one of them as an encrypted token. -/
theorem accepted_language (service : TokenService) (ring : KeyRing) (token : String)
    (signingKey : Option Bytes) (now : Instant) :
    (∀ claims, service.verifyPlain ring token signingKey now = .ok claims ↔
      ∃ headerText payload header secret, token = writtenToken headerText payload secret ∧
        Header.read headerText = .ok header ∧ header.alg = Header.hs256 ∧ header.enc = none ∧
        SigningSecret ring header signingKey secret ∧ Claims.read payload = .ok claims ∧
        service.Admits claims now) ∧
    ∀ claims, service.verifyPlain ring token signingKey now = .ok claims →
      (∀ (verifier : TokenService) (instant : Instant) (envelope : Envelope) (other : String),
        Envelope.split token = .ok envelope → DotFree other → other ≠ envelope.signature64 →
        verifier.verifyPlain ring { envelope with signature64 := other }.token signingKey instant =
          .error .invalidSignature) ∧
      ∀ (τ : Type) [KeyStore τ] (verifier : TokenService) (keeper : Keeper τ)
        (encryptionKey otherKey : Option Bytes) (instant : Instant) (entropy : Entropy)
        (others : Claims),
        (perform (verifier.verifyEncrypted token encryptionKey otherKey instant entropy) keeper).1 ≠
          .ok others := by
  refine ⟨fun claims => ?_, fun claims accepted => ?_⟩
  · rw [verifyPlain_eq_ok_iff]
    constructor
    · rintro ⟨header, envelope, payload, authentic, plain, decoded, read, admitted⟩
      obtain ⟨headerText, secret, headerRead, isSecret, written⟩ :=
        authentic.eq_writtenToken decoded
      exact ⟨headerText, payload, header, secret, written, headerRead, authentic.algorithm, plain,
        isSecret, read, admitted⟩
    · rintro ⟨headerText, payload, header, secret, rfl, headerRead, algorithm, plain, isSecret, read,
        admitted⟩
      exact ⟨header, writtenEnvelope headerText payload secret, payload,
        authentic_writtenToken headerRead algorithm isSecret, plain, rfl, read, admitted⟩
  · obtain ⟨header, envelope, payload, authentic, plain, -⟩ := verifyPlain_eq_ok_iff.1 accepted
    constructor
    · intro verifier instant cut other cutOk free changed
      obtain rfl : envelope = cut := Except.ok.inj (authentic.cut.symm.trans cutOk)
      rw [verifyPlain, openEnvelope_resigned authentic free changed]
      rfl
    · intro τ _ verifier keeper encryptionKey otherKey instant entropy others accepted
      obtain ⟨sealedHeader, sealedEnvelope, sealedAuthentic, encrypted⟩ :=
        authentic_of_verifyEncrypted accepted
      -- The header is a function of the token, and it says either nothing of a seal or names one.
      obtain rfl : envelope = sealedEnvelope :=
        Except.ok.inj (authentic.cut.symm.trans sealedAuthentic.cut)
      obtain rfl : header = sealedHeader :=
        Except.ok.inj (authentic.read.symm.trans sealedAuthentic.read)
      rw [plain] at encrypted
      cases encrypted

end Bearer.TokenService
