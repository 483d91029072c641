import Bearer.Proofs.Token.Acceptance
/-!
# Nothing happens before authentication

* `openEnvelope_eq_refusal`: the error for a token that is not authentic is known from its header,
  the ring and the caller's key alone.
* `unchanged_of_verifyEncrypted`: what a token has to be for a call to change anything.
* `authentication_first`: both together, for plain and for encrypted tokens.
-/

namespace Bearer.TokenService

/-! ## The error for a token that is not authentic -/

def refusal (ring : KeyRing) (header : Except Error Header) (signingKey : Option Bytes) : Error :=
  match header with
  | .error fault => fault
  | .ok header =>
      if header.alg = Header.hs256 then
        match verificationSecret ring header signingKey with
        | .error fault => fault
        | .ok _ => .invalidSignature
      else .malformedToken (.algorithm header.alg)

theorem openEnvelope_eq_refusal {ring : KeyRing} {token : String} {signingKey : Option Bytes}
    {envelope : Envelope} (cut : Envelope.split token = .ok envelope)
    (forged : ¬∃ header envelope, Authentic ring token signingKey header envelope) :
    openEnvelope ring token signingKey = .error (refusal ring envelope.header signingKey) := by
  cases opened : openEnvelope ring token signingKey with
  | ok pair => exact absurd ⟨pair.1, pair.2, openEnvelope_eq_ok_iff.1 opened⟩ forged
  | error fault =>
      simp only [openEnvelope, cut, ok_bind] at opened
      cases read : envelope.header with
      | error headerFault =>
          rw [read, error_bind] at opened
          simpa [refusal] using opened.symm
      | ok header =>
          by_cases algorithm : header.alg = Header.hs256
          · simp only [read, ok_bind, algorithm, ne_eq, not_true_eq_false, if_false] at opened
            cases selected : verificationSecret ring header signingKey with
            | error secretFault =>
                rw [selected, error_bind] at opened
                simpa [refusal, algorithm, selected] using opened.symm
            | ok secret =>
                -- What is left is the signature, and all that can be wrong with it is one error.
                rw [selected, ok_bind] at opened
                cases decoded : envelope.signature with
                | error signatureFault =>
                    rw [decoded, mapError_error, error_bind] at opened
                    simpa [refusal, algorithm, selected] using opened.symm
                | ok signature =>
                    rw [decoded, mapError_ok, ok_bind] at opened
                    split at opened
                    · cases opened
                    · simpa [refusal, algorithm, selected] using opened.symm
          · simp only [read, ok_bind, ne_eq, algorithm, not_false_eq_true, if_true] at opened
            simpa [refusal, algorithm] using opened.symm

/-! ## Both calls -/

/-- Both calls answer with this error and leave everything as it is, whoever verifies and whatever
the time, the store, the trail and the key of the payload are. -/
structure Refused (ring : KeyRing) (token : String) (signingKey : Option Bytes) (error : Error) :
    Prop where
  plain (service : TokenService) (now : Instant) :
    service.verifyPlain ring token signingKey now = .error error
  encrypted (σ : Type) [KeyStore σ] (service : TokenService) (keeper : Keeper σ)
    (encryptionKey : Option Bytes) (now : Instant) (entropy : Entropy) (same : keeper.ring = ring) :
    perform (service.verifyEncrypted token encryptionKey signingKey now entropy) keeper =
      (.error error, keeper)

theorem refused_of_openEnvelope {ring : KeyRing} {token : String} {signingKey : Option Bytes}
    {error : Error} (closed : openEnvelope ring token signingKey = .error error) :
    Refused ring token signingKey error where
  plain service now := by rw [verifyPlain, closed, error_bind]
  encrypted σ _ service keeper encryptionKey now entropy same := by
    subst same
    rw [verifyEncrypted_eq, unwrap, closed, error_bind]

theorem refused_of_split {ring : KeyRing} {token : String} {signingKey : Option Bytes}
    {error : Error} (uncut : Envelope.split token = .error error) :
    Refused ring token signingKey error :=
  refused_of_openEnvelope (by rw [openEnvelope, uncut, error_bind])

theorem refused_with_payload {ring : KeyRing} {token payload64 : String}
    {signingKey : Option Bytes} {envelope : Envelope} (cut : Envelope.split token = .ok envelope)
    (free : DotFree payload64)
    (forged : ¬∃ header cut, Authentic ring { envelope with payload64 }.token signingKey header cut) :
    Refused ring { envelope with payload64 }.token signingKey
      (refusal ring envelope.header signingKey) := by
  have segmented := Envelope.segmented_of_split cut
  have recut : Envelope.split { envelope with payload64 }.token =
      .ok { envelope with payload64 } :=
    Envelope.split_token ⟨segmented.header, free, segmented.signature⟩
  have closed := openEnvelope_eq_refusal recut forged
  exact refused_of_openEnvelope closed

/-! ## Changes -/

variable {σ : Type} [KeyStore σ]

theorem currentEncryptionKey_of_valid {keeper : Keeper σ} {key : Key} {now : Instant}
    (draw : KeyDraw) (current : keeper.ring.encryption.current = some key)
    (valid : key.isValid now = true) :
    perform (Keeper.currentEncryptionKey now draw) keeper = (.ok key, keeper) := by
  have found : keeper.ring.validEncryptionKey? now = some key := by
    rw [KeyRing.validEncryptionKey?, current, Option.filter_some, if_pos valid]
  simp only [Keeper.currentEncryptionKey, perform_get_bind, found, perform_pure]

theorem openWithRing_of_valid {keeper : Keeper σ} {key : Key} {sealed : Bytes} {now : Instant}
    (draw : KeyDraw) (current : keeper.ring.encryption.current = some key)
    (valid : key.isValid now = true) : perform (openWithRing sealed now draw) keeper =
      (openWithKeys sealed key keeper.ring.encryption.previous, keeper) := by
  rw [openWithRing, perform_bind_ok (currentEncryptionKey_of_valid draw current valid),
    perform_get_bind, perform_lift]

theorem unchanged_of_verifyEncrypted {service : TokenService} {keeper : Keeper σ} {token : String}
    {encryptionKey signingKey : Option Bytes} {now : Instant} {entropy : Entropy}
    (changed : (perform (service.verifyEncrypted token encryptionKey signingKey now entropy)
      keeper).2 ≠ keeper) :
    ∃ header envelope sealed, Authentic keeper.ring token signingKey header envelope ∧
      header.enc = some Header.a256gcm ∧ envelope.payload = .ok sealed ∧
      Gcm.nonceLength ≤ sealed.length ∧ (encryptionKey = none ∨ encryptionKey = some []) ∧
      ∀ key, keeper.ring.encryption.current = some key → key.isValid now = false := by
  rw [verifyEncrypted_eq] at changed
  cases read : unwrap keeper.ring token signingKey with
  | error fault => simp [read] at changed
  | ok sealed =>
      obtain ⟨header, envelope, authentic, encrypted, decoded, long⟩ := unwrap_eq_ok_iff.1 read
      cases given : explicit encryptionKey with
      | some secret => simp [read, given] at changed
      | none =>
          simp only [read, given] at changed
          refine ⟨header, envelope, sealed, authentic, encrypted, decoded, long,
            explicit_eq_none_iff.1 given, fun key current => ?_⟩
          cases valid : key.isValid now with
          | false => rfl
          | true =>
              rw [perform_bind, openWithRing_of_valid _ current valid] at changed
              cases plaintext : openWithKeys sealed key keeper.ring.encryption.previous <;>
                simp [plaintext] at changed

/-! ## Authentication comes first -/

/-- Of a token that is not authentic both calls say the same and change nothing, and another payload
that leaves it so changes nothing in what they say. No plain token changes anything, and an
encrypted one only if it is authentic and the call cannot do without a rotation. -/
theorem authentication_first (ring : KeyRing) (token : String) (signingKey : Option Bytes) :
    ((¬∃ header envelope, Authentic ring token signingKey header envelope) →
      ∃ error, Refused ring token signingKey error ∧
        ∀ envelope payload64, Envelope.split token = .ok envelope → DotFree payload64 →
          (¬∃ header cut,
            Authentic ring { envelope with payload64 }.token signingKey header cut) →
          Refused ring { envelope with payload64 }.token signingKey error) ∧
    ∀ (τ : Type) [KeyStore τ] (service : TokenService) (keeper : Keeper τ) (now : Instant),
      keeper.ring = ring →
      (perform (do service.verifyPlain (← get).ring token signingKey now : KeeperM τ Claims)
        keeper).2 = keeper ∧
      ∀ (encryptionKey : Option Bytes) (entropy : Entropy),
        (perform (service.verifyEncrypted token encryptionKey signingKey now entropy) keeper).2 ≠
          keeper →
        ∃ header envelope sealed, Authentic ring token signingKey header envelope ∧
          header.enc = some Header.a256gcm ∧ envelope.payload = .ok sealed ∧
          Gcm.nonceLength ≤ sealed.length ∧ (encryptionKey = none ∨ encryptionKey = some []) ∧
          ∀ key, ring.encryption.current = some key → key.isValid now = false := by
  constructor
  · intro forged
    cases cut : Envelope.split token with
    | error fault => exact ⟨fault, refused_of_split cut, fun _ _ other => by cases other⟩
    | ok envelope =>
        refine ⟨refusal ring envelope.header signingKey,
          refused_of_openEnvelope (openEnvelope_eq_refusal cut forged), ?_⟩
        intro same payload64 sameCut free stillForged
        obtain rfl := Except.ok.inj sameCut
        exact refused_with_payload cut free stillForged
  · intro τ _ service keeper now same
    subst same
    refine ⟨by rw [perform_get_bind, perform_lift], fun encryptionKey entropy changed => ?_⟩
    exact unchanged_of_verifyEncrypted changed

end Bearer.TokenService
