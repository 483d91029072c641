import Bearer.Proofs.Token.Encrypted
/-!
# Whose fault a failed verification is

* `Rejects`: outcomes whose errors all speak of a bad credential. Reading a token and its claims, and
  the check of its signature, have no others (`rejects_verifyPlain`, `rejects_unwrap`).
* `openWithKeys_eq_error_iff`: of two keys that fail, the error is that of the current one.
* `ServerFault`: what is left for an encrypted token, a rotation that the random source or the store
  does not carry out, or a key that does not fit the cipher.
* `faults_told_apart`: all this for both calls.
-/

namespace Bearer

open Keeper KeyStore

/-! ## Outcomes that blame the credential -/

def Rejects {α : Type} (outcome : Except Error α) : Prop :=
  ∀ error, outcome = .error error → error.isRejection = true

section Rejects

variable {ε α β : Type}

theorem rejects_ok (value : α) : Rejects (Except.ok value) := nofun

theorem rejects_error {error : Error} (rejection : error.isRejection = true) :
    Rejects (Except.error error : Except Error α) := by
  rintro other ⟨⟩
  exact rejection

theorem rejects_mapError {change : ε → Error} (rejection : ∀ fault, (change fault).isRejection = true)
    (outcome : Except ε α) : Rejects (outcome.mapError change) := by
  cases outcome with
  | ok value => exact rejects_ok value
  | error fault => exact rejects_error (rejection fault)

theorem Rejects.bind {first : Except Error α} {next : α → Except Error β} (begins : Rejects first)
    (goesOn : ∀ value, Rejects (next value)) : Rejects (first >>= next) := by
  cases first with
  | ok value => exact goesOn value
  | error error => exact rejects_error (begins error rfl)

theorem bind_eq_fault_iff {first : Except Error α} {next : α → Except Error β}
    (goesOn : ∀ value, Rejects (next value)) {error : Error} :
    (first >>= next) = .error error ∧ error.isRejection = false ↔
      first = .error error ∧ error.isRejection = false := by
  cases first with
  | error other => rw [error_bind, Except.error.injEq, Except.error.injEq]
  | ok value =>
      rw [ok_bind]
      constructor
      · rintro ⟨failed, blameless⟩
        rw [goesOn value error failed] at blameless
        cases blameless
      · rintro ⟨failed, -⟩
        cases failed

theorem Rejects.ite {condition : Prop} [Decidable condition] {left right : Except Error α}
    (first : Rejects left) (second : Rejects right) :
    Rejects (if condition then left else right) := by
  split
  · exact first
  · exact second

end Rejects

namespace Envelope

theorem rejects_split (token : String) : Rejects (split token) := by
  unfold split
  split
  · exact rejects_ok _
  · exact rejects_error rfl

theorem rejects_decode (segment what : String) : Rejects (decode segment what) :=
  rejects_mapError (fun _ => rfl) _

theorem rejects_header (envelope : Envelope) : Rejects envelope.header :=
  (rejects_decode _ _).bind fun _ => rejects_mapError (fun _ => rfl) _

end Envelope

namespace TokenService

/-! ## Tokens and claims -/

theorem rejects_signingKey (ring : KeyRing) (id : Uuid) : Rejects (ring.signingKey id) := by
  unfold KeyRing.signingKey
  split
  · exact rejects_ok _
  · exact rejects_error rfl

theorem rejects_verificationSecret (ring : KeyRing) (header : Header) (signingKey : Option Bytes) :
    Rejects (verificationSecret ring header signingKey) := by
  unfold verificationSecret
  split
  · exact rejects_ok _
  · split
    · exact rejects_error rfl
    · exact (rejects_mapError (fun _ => rfl) _).bind fun id =>
        (rejects_signingKey ring id).bind fun key => rejects_ok key.secret

theorem rejects_openEnvelope (ring : KeyRing) (token : String) (signingKey : Option Bytes) :
    Rejects (openEnvelope ring token signingKey) := by
  refine (Envelope.rejects_split token).bind fun envelope => ?_
  refine envelope.rejects_header.bind fun header => ?_
  refine .ite (rejects_error rfl) ?_
  refine (rejects_verificationSecret ring header signingKey).bind fun secret => ?_
  refine (rejects_mapError (fun _ => rfl) _).bind fun signature => ?_
  exact .ite (rejects_ok _) (rejects_error rfl)

theorem rejects_sealedPayload (header : Header) (envelope : Envelope) :
    Rejects (sealedPayload header envelope) := by
  refine .ite (rejects_error rfl) ?_
  refine (Envelope.rejects_decode _ _).bind fun sealed => ?_
  exact .ite (rejects_error rfl) (rejects_ok sealed)

theorem rejects_unwrap (ring : KeyRing) (token : String) (signingKey : Option Bytes) :
    Rejects (unwrap ring token signingKey) :=
  (rejects_openEnvelope ring token signingKey).bind fun (header, envelope) =>
    rejects_sealedPayload header envelope

theorem rejects_checkExpiry (service : TokenService) (claims : Claims) (now : Instant) :
    Rejects (service.checkExpiry claims now) := by
  unfold checkExpiry
  split
  · exact .ite (rejects_error rfl) (rejects_ok _)
  · exact .ite (rejects_error rfl) (rejects_ok _)

theorem rejects_acceptClaims (service : TokenService) (payload : Bytes) (now : Instant) :
    Rejects (service.acceptClaims payload now) :=
  (rejects_mapError (fun _ => rfl) _).bind fun claims =>
    (service.rejects_checkExpiry claims now).bind fun _ => rejects_ok claims

theorem rejects_verifyPlain (service : TokenService) (ring : KeyRing) (token : String)
    (signingKey : Option Bytes) (now : Instant) :
    Rejects (service.verifyPlain ring token signingKey now) := by
  refine (rejects_openEnvelope ring token signingKey).bind fun (header, envelope) => ?_
  refine .ite (rejects_error rfl) ?_
  exact (Envelope.rejects_decode _ _).bind fun payload => service.rejects_acceptClaims payload now

/-! ## Opening -/

theorem openSealed_ne_random (sealed key : Bytes) (reason : String) :
    openSealed sealed key ≠ .error (.random reason) := by
  unfold openSealed
  split
  · nofun
  · split
    · nofun
    · split <;> nofun

theorem openError_blameless_iff {sealed key : Bytes} {fault : CryptoError}
    (fails : openSealed sealed key = .error fault) {error : Error} :
    openError fault = error ∧ error.isRejection = false ↔
      fault = .invalidKeyLength ∧ error = .crypto .invalidKeyLength := by
  constructor
  · rintro ⟨rfl, blameless⟩
    cases fault with
    | random reason => exact absurd fails (openSealed_ne_random sealed key reason)
    | invalidKeyLength => exact ⟨rfl, rfl⟩
    | truncated => cases blameless
    | aead => cases blameless
  · rintro ⟨rfl, rfl⟩
    exact ⟨rfl, rfl⟩

def Closed (sealed : Bytes) (key : Key) : Prop := ∀ text, openSealed sealed key.secret ≠ .ok text

theorem openWithKeys_of_error {sealed : Bytes} {current : Key} {fault : CryptoError}
    (fails : openSealed sealed current.secret = .error fault) {previous : Option Key}
    (closed : ∀ key, previous = some key → Closed sealed key) :
    openWithKeys sealed current previous = .error (openError fault) := by
  rw [openWithKeys, fails]
  cases previous with
  | none => rfl
  | some key =>
      cases second : openSealed sealed key.secret with
      | ok text => exact absurd second (closed key rfl text)
      | error other => simp only [second, mapError_error]

/-- What the previous key says of its own failure is never told. -/
theorem openWithKeys_eq_error_iff {sealed : Bytes} {current : Key} {previous : Option Key}
    {error : Error} : openWithKeys sealed current previous = .error error ↔
      ∃ fault, openSealed sealed current.secret = .error fault ∧ error = openError fault ∧
        ∀ key, previous = some key → Closed sealed key := by
  constructor
  · intro failed
    cases first : openSealed sealed current.secret with
    | ok text =>
        rw [openWithKeys_of_current first] at failed
        cases failed
    | error fault =>
        have closed (key : Key) (there : previous = some key) : Closed sealed key := by
          intro text opens
          subst there
          rw [openWithKeys, first] at failed
          simp only [opens, mapError_ok] at failed
          cases failed
        rw [openWithKeys_of_error first closed] at failed
        cases failed
        exact ⟨fault, rfl, rfl, closed⟩
  · rintro ⟨fault, fails, rfl, closed⟩
    exact openWithKeys_of_error fails closed

end TokenService

theorem openSealed_eq_invalidKeyLength_iff {sealed key : Bytes}
    (long : Gcm.nonceLength ≤ sealed.length) :
    openSealed sealed key = .error .invalidKeyLength ↔ key.length ≠ keyLength := by
  constructor
  · intro failed
    rw [openSealed, if_neg (Nat.not_lt.2 long)] at failed
    split at failed
    · next unfit => exact unfit
    · split at failed <;> cases failed
  · exact openSealed_eq_invalidKeyLength long

namespace TokenService

theorem nonceLength_le_of_unwrap {ring : KeyRing} {token : String} {signingKey : Option Bytes}
    {sealed : Bytes} (read : unwrap ring token signingKey = .ok sealed) :
    Gcm.nonceLength ≤ sealed.length := by
  obtain ⟨-, -, -, -, -, long⟩ := unwrap_eq_ok_iff.1 read
  exact long

end TokenService

/-! ## Rotations that fail -/

namespace Keeper

variable {σ : Type} [KeyStore σ]

inductive RotationFault (keeper : Keeper σ) (now : Instant) (draw : KeyDraw) : Error → Prop where
  | undrawn {reason : String} (refused : draw.secret = .error reason) :
      RotationFault keeper now draw (undrawn reason)
  | unremoved {key previous : Key} {store : σ} {fault : StoreError}
      (minted : Key.mint now draw = .ok key)
      (held : keeper.ring.encryption.previous = some previous)
      (failed : perform (removeEncryptionKey previous.id) keeper.store = (.error fault, store)) :
      RotationFault keeper now draw (.store .removingPrevious fault)
  | unsaved {key : Key} {cleared store : σ} {fault : StoreError}
      (minted : Key.mint now draw = .ok key)
      (removed : Cleared keeper.store keeper.ring.encryption.previous cleared)
      (failed : perform (save .encryption key draw.nonce) cleared = (.error fault, store)) :
      RotationFault keeper now draw (.store (.saving false) fault)
  | calendarEnds (ends : Key.mint now draw = .error .calendarEnds) :
      RotationFault keeper now draw .calendarEnds

theorem currentEncryptionKey_of_fault {keeper : Keeper σ} {now : Instant} {draw : KeyDraw}
    {error : Error} (invalid : keeper.ring.validEncryptionKey? now = none)
    (failed : RotationFault keeper now draw error) :
    (perform (currentEncryptionKey now draw) keeper).1 = .error error := by
  simp only [currentEncryptionKey, rotateEncryptionKey, perform_get_bind, invalid]
  cases failed with
  | undrawn refused => rw [perform_bind_error (perform_mint_undrawn refused)]
  | calendarEnds ends => rw [perform_bind_error (perform_mint_calendarEnds ends)]
  | unremoved minted held failed =>
      rw [perform_bind_ok (perform_mint_ok minted)]
      simp only [perform_get_bind, held, Option.map_some]
      rw [perform_bind_error (perform_onStore_error failed)]
  | unsaved minted removed failed =>
      rw [perform_bind_ok (perform_mint_ok minted)]
      simp only [perform_get_bind]
      generalize held : keeper.ring.encryption.previous = previous at removed
      cases removed with
      | nothing =>
          simp only [Option.map_none]
          rw [perform_bind_error (perform_onStore_error failed)]
      | removed gone =>
          simp only [Option.map_some]
          rw [perform_bind_ok (perform_onStore_ok gone),
            perform_bind_error (perform_onStore_error failed)]

theorem validEncryptionKey?_eq_none_iff {ring : KeyRing} {now : Instant} :
    ring.validEncryptionKey? now = none ↔
      ∀ current, ring.encryption.current = some current → current.isValid now = false := by
  rw [KeyRing.validEncryptionKey?, Option.filter_eq_none_iff]
  simp

theorem currentEncryptionKey_eq_error_iff {keeper : Keeper σ} {now : Instant} {draw : KeyDraw}
    {error : Error} : (perform (currentEncryptionKey now draw) keeper).1 = .error error ↔
      keeper.ring.validEncryptionKey? now = none ∧ RotationFault keeper now draw error := by
  constructor
  · intro failed
    have invalid : keeper.ring.validEncryptionKey? now = none := by
      cases found : keeper.ring.validEncryptionKey? now with
      | none => rfl
      | some key => simp [currentEncryptionKey, perform_get_bind, found] at failed
    refine ⟨invalid, ?_⟩
    rcases asked : perform (currentEncryptionKey now draw) keeper with ⟨outcome, after⟩
    have step := currentEncryptionKey_step asked
    rw [asked] at failed
    subst failed
    cases step with
    | undrawn refused => exact .undrawn refused
    | calendarEnds ends => exact .calendarEnds ends
    | unremoved minted held failed => exact .unremoved minted held failed
    | unsaved minted removed failed => exact .unsaved minted removed failed
  · rintro ⟨invalid, failed⟩
    exact currentEncryptionKey_of_fault invalid failed

end Keeper

namespace TokenService

theorem mapError_openError_eq_fault_iff {sealed secret : Bytes}
    (long : Gcm.nonceLength ≤ sealed.length) {error : Error} :
    (openSealed sealed secret).mapError openError = .error error ∧ error.isRejection = false ↔
      secret.length ≠ keyLength ∧ error = .crypto .invalidKeyLength := by
  rw [← openSealed_eq_invalidKeyLength_iff long]
  cases opened : openSealed sealed secret with
  | ok text => simp
  | error fault =>
      rw [mapError_error, Except.error.injEq, Except.error.injEq]
      exact openError_blameless_iff opened

theorem openWithKeys_eq_fault_iff {sealed : Bytes} (long : Gcm.nonceLength ≤ sealed.length)
    {current : Key} {previous : Option Key} {error : Error} :
    openWithKeys sealed current previous = .error error ∧ error.isRejection = false ↔
      current.secret.length ≠ keyLength ∧ (∀ key, previous = some key → Closed sealed key) ∧
        error = .crypto .invalidKeyLength := by
  rw [openWithKeys_eq_error_iff, ← openSealed_eq_invalidKeyLength_iff long]
  constructor
  · rintro ⟨⟨fault, fails, rfl, closed⟩, blameless⟩
    obtain ⟨rfl, isError⟩ := (openError_blameless_iff fails).1 ⟨rfl, blameless⟩
    exact ⟨fails, closed, isError⟩
  · rintro ⟨fails, closed, rfl⟩
    exact ⟨⟨_, fails, rfl, closed⟩, rfl⟩

variable {σ : Type} [KeyStore σ]

/-! ## Faults of the server -/

/-- What the server can do wrong with a sealed payload that it has been handed. -/
inductive ServerFault (keeper : Keeper σ) (encryptionKey : Option Bytes) (sealed : Bytes)
    (now : Instant) (draw : KeyDraw) : Error → Prop where
  | rotation {error : Error} (absent : encryptionKey = none ∨ encryptionKey = some [])
      (invalid : ∀ current, keeper.ring.encryption.current = some current →
        current.isValid now = false)
      (failed : RotationFault keeper now draw error) :
      ServerFault keeper encryptionKey sealed now draw error
  | ownKey {secret : Bytes} (given : encryptionKey = some secret) (filled : secret ≠ [])
      (unfit : secret.length ≠ keyLength) :
      ServerFault keeper encryptionKey sealed now draw (.crypto .invalidKeyLength)
  | ringKey {current : Key} (absent : encryptionKey = none ∨ encryptionKey = some [])
      (isCurrent : keeper.ring.encryption.current = some current)
      (valid : current.isValid now = true) (unfit : current.secret.length ≠ keyLength)
      (closed : ∀ previous, keeper.ring.encryption.previous = some previous →
        Closed sealed previous) :
      ServerFault keeper encryptionKey sealed now draw (.crypto .invalidKeyLength)

section ServerFault

variable {keeper : Keeper σ} {encryptionKey : Option Bytes} {sealed : Bytes} {now : Instant}
  {draw : KeyDraw} {error : Error}

theorem serverFault_own_iff {secret : Bytes} (given : explicit encryptionKey = some secret) :
    ServerFault keeper encryptionKey sealed now draw error ↔
      secret.length ≠ keyLength ∧ error = .crypto .invalidKeyLength := by
  obtain ⟨rfl, filled⟩ := explicit_eq_some_iff.1 given
  constructor
  · intro fault
    cases fault with
    | ownKey same _ unfit =>
        cases same
        exact ⟨unfit, rfl⟩
    | rotation absent => cases given.symm.trans (explicit_eq_none_iff.2 absent)
    | ringKey absent => cases given.symm.trans (explicit_eq_none_iff.2 absent)
  · rintro ⟨unfit, rfl⟩
    exact .ownKey rfl filled unfit

theorem serverFault_valid_iff (given : explicit encryptionKey = none) {current : Key}
    (isCurrent : keeper.ring.encryption.current = some current)
    (valid : current.isValid now = true) :
    ServerFault keeper encryptionKey sealed now draw error ↔ current.secret.length ≠ keyLength ∧
      (∀ key, keeper.ring.encryption.previous = some key → Closed sealed key) ∧
      error = .crypto .invalidKeyLength := by
  constructor
  · intro fault
    cases fault with
    | ownKey own filled => cases given.symm.trans (explicit_eq_some_iff.2 ⟨own, filled⟩)
    | rotation _ invalid => cases valid.symm.trans (invalid current isCurrent)
    | ringKey _ same _ unfit closed =>
        cases isCurrent.symm.trans same
        exact ⟨unfit, closed, rfl⟩
  · rintro ⟨unfit, closed, rfl⟩
    exact .ringKey (explicit_eq_none_iff.1 given) isCurrent valid unfit closed

theorem serverFault_invalid_iff (given : explicit encryptionKey = none)
    (invalid : ∀ current, keeper.ring.encryption.current = some current →
      current.isValid now = false) :
    ServerFault keeper encryptionKey sealed now draw error ↔ RotationFault keeper now draw error := by
  constructor
  · intro fault
    cases fault with
    | ownKey own filled => cases given.symm.trans (explicit_eq_some_iff.2 ⟨own, filled⟩)
    | rotation _ _ failed => exact failed
    | ringKey _ isCurrent valid => cases valid.symm.trans (invalid _ isCurrent)
  · exact .rotation (explicit_eq_none_iff.1 given) invalid

end ServerFault

/-! ## Calls -/

section Calls

variable {keeper : Keeper σ} {token : String} {encryptionKey signingKey : Option Bytes}
  {sealed : Bytes}

theorem verifyEncrypted_of_unwrap_error (service : TokenService) {fault : Error}
    (refused : unwrap keeper.ring token signingKey = .error fault) (now : Instant)
    (entropy : Entropy) :
    perform (service.verifyEncrypted token encryptionKey signingKey now entropy) keeper =
      (.error fault, keeper) := by
  rw [verifyEncrypted_eq, refused]

theorem verifyEncrypted_own (service : TokenService) {secret : Bytes}
    (given : explicit encryptionKey = some secret)
    (read : unwrap keeper.ring token signingKey = .ok sealed) (now : Instant) (entropy : Entropy) :
    perform (service.verifyEncrypted token encryptionKey signingKey now entropy) keeper =
      ((openSealed sealed secret).mapError openError >>= fun text =>
        service.acceptClaims text now, keeper) := by
  simp only [verifyEncrypted_eq, read, given]

theorem isRejection_of_rotationFault {now : Instant} {draw : KeyDraw} {error : Error}
    (failed : RotationFault keeper now draw error) : error.isRejection = false := by
  cases failed <;> rfl

theorem length_of_currentEncryptionKey {now : Instant} {draw : KeyDraw} {after : Keeper σ}
    {current : Key} (invalid : ∀ current, keeper.ring.encryption.current = some current →
      current.isValid now = false)
    (asked : perform (currentEncryptionKey now draw) keeper = (.ok current, after)) :
    current.secret.length = keyLength := by
  cases currentEncryptionKey_step asked with
  | valid isCurrent valid => cases valid.symm.trans (invalid current isCurrent)
  | minted minted => exact Key.length_of_mint minted

theorem verifyEncrypted_eq_fault_iff (service : TokenService)
    (read : unwrap keeper.ring token signingKey = .ok sealed) (now : Instant) (entropy : Entropy)
    (error : Error) :
    (perform (service.verifyEncrypted token encryptionKey signingKey now entropy) keeper).1 =
        .error error ∧ error.isRejection = false ↔
      ServerFault keeper encryptionKey sealed now entropy.encryptionKey error := by
  have long := nonceLength_le_of_unwrap read
  have accepts (text : Bytes) := service.rejects_acceptClaims text now
  cases given : explicit encryptionKey with
  | some secret =>
      rw [verifyEncrypted_own service given read, bind_eq_fault_iff accepts,
        mapError_openError_eq_fault_iff long, serverFault_own_iff given]
  | none =>
      rw [verifyEncrypted_of_unwrap service given read]
      cases found : keeper.ring.validEncryptionKey? now with
      | some current =>
          obtain ⟨isCurrent, valid⟩ := validEncryptionKey?_eq_some found
          simp only [currentEncryptionKey_of_valid _ isCurrent valid, bind_eq_fault_iff accepts,
            openWithKeys_eq_fault_iff long, serverFault_valid_iff given isCurrent valid]
      | none =>
          have invalid := validEncryptionKey?_eq_none_iff.1 found
          have failed := @currentEncryptionKey_eq_error_iff _ _ keeper now entropy.encryptionKey error
          rw [serverFault_invalid_iff given invalid]
          rcases asked : perform (currentEncryptionKey now entropy.encryptionKey) keeper with
            ⟨other | current, after⟩
          · simp only [asked, Except.error.injEq] at failed ⊢
            constructor
            · rintro ⟨refused, -⟩
              exact (failed.1 refused).2
            · intro rotation
              exact ⟨failed.2 ⟨found, rotation⟩, isRejection_of_rotationFault rotation⟩
          -- A key that has just been minted fits the cipher, and so no fault is left.
          · have fits := length_of_currentEncryptionKey invalid asked
            simp only [bind_eq_fault_iff accepts, openWithKeys_eq_fault_iff long]
            constructor
            · rintro ⟨unfit, -⟩
              exact absurd fits unfit
            · intro rotation
              have refused := failed.2 ⟨found, rotation⟩
              rw [asked] at refused
              cases refused

end Calls

/-! ## Both calls -/

/-- An error of a plain verification always speaks of the credential. One of an encrypted
verification does not only where the server fails on a payload that it has been handed: it has to
replace the key of its ring and cannot, for want of randomness, of time or of a store that takes
the new one, or the key that comes first does not fit the cipher. Of two keys of the ring that both
fail, the current one gives the error, whatever the other says, and whatever it says itself, the
payload is read with the previous one where that opens it. -/
theorem faults_told_apart (service : TokenService) (token : String) (signingKey : Option Bytes)
    (now : Instant) :
    (∀ ring error, service.verifyPlain ring token signingKey now = .error error →
      error.isRejection = true) ∧
    ∀ (τ : Type) [KeyStore τ] (keeper : Keeper τ) (encryptionKey : Option Bytes)
      (entropy : Entropy),
      let answer :=
        (perform (service.verifyEncrypted token encryptionKey signingKey now entropy) keeper).1
      (∀ error, answer = .error error ∧ error.isRejection = false ↔
        ∃ sealed, unwrap keeper.ring token signingKey = .ok sealed ∧
          ServerFault keeper encryptionKey sealed now entropy.encryptionKey error) ∧
      ∀ sealed current after fault, unwrap keeper.ring token signingKey = .ok sealed →
        (encryptionKey = none ∨ encryptionKey = some []) →
        perform (currentEncryptionKey now entropy.encryptionKey) keeper = (.ok current, after) →
        openSealed sealed current.secret = .error fault →
        ((∀ previous, after.ring.encryption.previous = some previous → Closed sealed previous) →
          answer = .error (openError fault)) ∧
        ∀ previous text, after.ring.encryption.previous = some previous →
          openSealed sealed previous.secret = .ok text →
          answer = service.acceptClaims text now := by
  refine ⟨fun ring => service.rejects_verifyPlain ring token signingKey now, ?_⟩
  intro τ _ keeper encryptionKey entropy answer
  constructor
  · intro error
    cases read : unwrap keeper.ring token signingKey with
    | ok sealed =>
        rw [service.verifyEncrypted_eq_fault_iff read now entropy error]
        simp
    | error fault =>
        have isAnswer : answer = .error fault :=
          congrArg Prod.fst (service.verifyEncrypted_of_unwrap_error read now entropy)
        rw [isAnswer]
        constructor
        · rintro ⟨same, blameless⟩
          rw [← Except.error.inj same, rejects_unwrap _ _ _ fault read] at blameless
          cases blameless
        · rintro ⟨sealed, ⟨⟩, -⟩
  · intro sealed current after fault read absent asked fails
    have opened := service.verifyEncrypted_of_unwrap (explicit_eq_none_iff.2 absent) read now entropy
    rw [asked] at opened
    have isAnswer : answer = (openWithKeys sealed current after.ring.encryption.previous >>=
      fun text => service.acceptClaims text now) := congrArg Prod.fst opened
    constructor
    · intro closed
      rw [isAnswer, openWithKeys_of_error fails closed, error_bind]
    · intro previous text there opens
      have closed (text : Bytes) : openSealed sealed current.secret ≠ .ok text := by
        rw [fails]
        nofun
      rw [isAnswer, there, openWithKeys_of_previous closed opens, ok_bind]

theorem unfit_key_and_broken_store :
    let service := ofDomain "example.org" ⟨false⟩
    let token := signedToken .encrypted (List.replicate 12 0) [7]
    let keeper : Keeper MemoryStore := ⟨.empty, ⟨[], [], true, false⟩, []⟩
    let verify (key : Option Bytes) (entropy : Entropy) :=
      (perform (service.verifyEncrypted token key (some [7]) .epoch entropy) keeper).1
    verify (some [9]) (sampleEntropy 1) = .error (.crypto .invalidKeyLength) ∧
      verify none (.refused "closed") =
        .error (.generation "randomness source failed: closed") ∧
      verify none (sampleEntropy 1) = .error (.store (.saving false) (.backend .writesDisabled)) ∧
      ∀ error, service.verifyPlain .empty token (some [7]) .epoch = .error error →
        error.isRejection = true := by
  intro service token keeper verify
  have filled : ([7] : Bytes) ≠ [] := by decide
  have own : SigningSecret .empty .encrypted (some [7]) [7] := .own filled
  have authentic := authentic_of_secret (List.replicate 12 0) rfl own
  have read : unwrap .empty token (some [7]) = .ok (List.replicate 12 0) :=
    unwrap_eq_ok_iff.2 ⟨_, _, authentic, rfl, payload_writtenEnvelope _ _ _, by decide⟩
  have noKey (current : Key) (there : keeper.ring.encryption.current = some current) :
      current.isValid .epoch = false := by cases there
  obtain ⟨plain, encrypted⟩ := faults_told_apart service token (some [7]) .epoch
  have faults (key : Option Bytes) (entropy : Entropy) := (encrypted MemoryStore keeper key entropy).1
  refine ⟨((faults (some [9]) _ _).2 ⟨_, read, ?_⟩).1, ((faults none _ _).2 ⟨_, read, ?_⟩).1,
    ((faults none _ _).2 ⟨_, read, ?_⟩).1, plain .empty⟩
  · exact .ownKey rfl (by decide) (by decide)
  · have told : undrawn "closed" = .generation "randomness source failed: closed" := rfl
    exact .rotation (.inl rfl) noKey (told ▸ .undrawn rfl)
  · obtain ⟨key, minted⟩ : ∃ key, Key.mint .epoch (sampleEntropy 1).encryptionKey = .ok key :=
      ⟨_, rfl⟩
    exact .rotation (.inl rfl) noKey (.unsaved minted .nothing rfl)

end TokenService

end Bearer
