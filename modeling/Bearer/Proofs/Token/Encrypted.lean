import Bearer.Proofs.Crypto.Seal
import Bearer.Proofs.Key.Encryption
import Bearer.Proofs.Token.Authentication
import Bearer.Proofs.Token.Issue
/-!
# Encrypted tokens last for one rotation

* `signEncrypted_eq_ok`: what an encrypted token looks like that keys of the ring have made.
* `verifyEncrypted_signedToken`: such a token is as good as the keys that open it.
* `encrypted_token_lasts_one_rotation`: it is answered with its claims while its key is the current or
  the previous one, and never after that.
-/

namespace Bearer

open Keeper KeyStore

/-! ## Keys that are gone -/

namespace Keeper

variable {σ : Type} [KeyStore σ]

theorem Line.forgotten [LawfulKeyStore σ] {origin : Store} {keeper : Keeper σ} {keys : KeyTable}
    {key : Key} (line : Line origin keeper keys) (gone : keys.find? key.id = none) :
    keeper.Forgotten key := by
  have foreign (place : Nat) (other : Key) (there : keys[place]? = some other) :
      other.id ≠ key.id := by
    have absent := List.find?_eq_none.1 gone other (List.mem_of_getElem? there)
    simpa using absent
  refine ⟨fun other there => foreign 0 other (line.current.symm.trans there),
    fun other there => foreign 1 other (line.previous.symm.trans there), ?_⟩
  rcases line.agree key.id with same | ⟨absent, -⟩
  · exact same.trans gone
  · exact absent

theorem Generation.aged_sub [LawfulKeyStore σ] {origin : Store} {keeper : Keeper σ}
    {keys : KeyTable} {key : Key} {base : Nat} (held : Generation origin keeper keys key base) :
    Aged key keys (encryptionMints keeper.trail - base) := by
  obtain ⟨-, age, mints, aged⟩ := held
  rwa [mints, Nat.add_sub_cancel_left]

theorem Generation.forgotten [LawfulKeyStore σ] {origin : Store} {keeper : Keeper σ}
    {keys : KeyTable} {key : Key} {base : Nat} (held : Generation origin keeper keys key base)
    (line : Line origin keeper keys) (old : 2 ≤ encryptionMints keeper.trail - base) :
    keeper.Forgotten key := by
  have aged := held.aged_sub
  obtain ⟨age, isAge⟩ := Nat.exists_eq_add_of_le' old
  rw [isAge] at aged
  exact line.forgotten aged.1

theorem EncryptionStep.current {keeper after : Keeper σ} {now : Instant} {draw : KeyDraw}
    {key : Key} (step : EncryptionStep keeper now draw (.ok key) after) :
    after.ring.encryption.current = some key := by
  cases step with
  | valid current _ => exact current
  | minted => rfl

theorem SigningStep.slots {keeper after : Keeper σ} {now : Instant} {draw : KeyDraw}
    {outcome : Except Error Key} (step : SigningStep keeper now draw outcome after) :
    after.ring.encryption = keeper.ring.encryption := by
  cases step <;> rfl

end Keeper

/-! ## Signing and verifying -/

namespace TokenService

variable {σ : Type} [KeyStore σ]

theorem signEncrypted_eq_ok {service : TokenService} {claims : Claims} {now : Instant}
    {entropy : Entropy} {keeper after : Keeper σ} {token : String}
    (done : perform (service.signEncrypted claims none none now entropy) keeper =
      (.ok token, after)) :
    ∃ key sealed signer between,
      EncryptionStep keeper now entropy.encryptionKey (.ok key) between ∧
      sealText (encodeClaims (service.stamp claims now)) key.secret entropy.payload = .ok sealed ∧
      SigningStep between now entropy.signingKey (.ok signer) after ∧
      token = signedToken (named .encrypted signer) sealed signer.secret := by
  change perform (do
    let secret ← Key.secret <$> currentEncryptionKey now entropy.encryptionKey
    let sealed ← (sealText (encodeClaims (service.stamp claims now)) secret
      entropy.payload).mapError sealError
    sealEnvelope .encrypted sealed none now entropy.signingKey) keeper = _ at done
  rw [map_eq_pure_bind, bind_assoc, perform_bind] at done
  rcases asked : perform (currentEncryptionKey now entropy.encryptionKey) keeper with
    ⟨fault | key, between⟩
  · simp [asked] at done
  · simp only [asked, pure_bind] at done
    cases sealedOk : sealText (encodeClaims (service.stamp claims now)) key.secret
      entropy.payload with
    | error fault => simp [sealedOk] at done
    | ok sealed =>
        rw [sealedOk, mapError_ok, perform_ok_bind] at done
        obtain ⟨signer, step, isToken⟩ := sealEnvelope_eq_ok done
        exact ⟨key, sealed, signer, between, currentEncryptionKey_step asked, sealedOk, step, isToken⟩

theorem unwrap_signedToken {ring : KeyRing} {signer : Key}
    (known : ring.signing.all.find? signer.id = some signer) {sealed : Bytes}
    (long : Gcm.nonceLength ≤ sealed.length) :
    unwrap ring (signedToken (named .encrypted signer) sealed signer.secret) none = .ok sealed := by
  have authentic := authentic_signedToken sealed
    (show Header.encrypted.alg = Header.hs256 from rfl) known
  exact unwrap_eq_ok_iff.2 ⟨_, _, authentic, rfl, payload_writtenEnvelope
    (Utf8.encode (named .encrypted signer).toJson.compact) sealed signer.secret, long⟩

theorem verifyEncrypted_of_unwrap (service : TokenService) {keeper : Keeper σ} {token : String}
    {encryptionKey signingKey : Option Bytes} (ringKeys : explicit encryptionKey = none)
    {sealed : Bytes} (read : unwrap keeper.ring token signingKey = .ok sealed) (now : Instant)
    (entropy : Entropy) :
    perform (service.verifyEncrypted token encryptionKey signingKey now entropy) keeper =
      match perform (currentEncryptionKey now entropy.encryptionKey) keeper with
      | (.error fault, after) => (.error fault, after)
      | (.ok current, after) => (openWithKeys sealed current after.ring.encryption.previous >>=
          fun text => service.acceptClaims text now, after) := by
  rw [verifyEncrypted_eq]
  simp only [read, ringKeys, openWithRing, bind_assoc]
  rcases asked : perform (currentEncryptionKey now entropy.encryptionKey) keeper with
    ⟨fault | current, after⟩
  · rw [perform_bind_error asked]
  · rw [perform_bind_ok asked, perform_get_bind]
    cases opened : openWithKeys sealed current after.ring.encryption.previous with
    | error fault => simp [opened]
    | ok text => simp [opened]

theorem verifyEncrypted_signedToken (service : TokenService) {keeper after : Keeper σ}
    {signer current : Key} (known : keeper.ring.signing.all.find? signer.id = some signer)
    {sealed : Bytes} (long : Gcm.nonceLength ≤ sealed.length) {now : Instant} {entropy : Entropy}
    (asked : perform (currentEncryptionKey now entropy.encryptionKey) keeper =
      (.ok current, after)) :
    perform (service.verifyEncrypted (signedToken (named .encrypted signer) sealed signer.secret)
      none none now entropy) keeper =
      (openWithKeys sealed current after.ring.encryption.previous >>=
        fun text => service.acceptClaims text now, after) := by
  rw [verifyEncrypted_of_unwrap service explicit_none (unwrap_signedToken known long), asked]

theorem verifyEncrypted_of_valid (service : TokenService)
    {keeper : Keeper σ} {now : Instant} {token : String} {encryptionKey signingKey : Option Bytes}
    {entropy : Entropy} (valid : (keeper.ring.validEncryptionKey? now).isSome) :
    (perform (service.verifyEncrypted token encryptionKey signingKey now entropy) keeper).2 =
      keeper := by
  by_contra changed
  obtain ⟨-, -, -, -, -, -, -, -, invalid⟩ := unchanged_of_verifyEncrypted changed
  obtain ⟨key, found⟩ := Option.isSome_iff_exists.1 valid
  obtain ⟨current, valid⟩ := validEncryptionKey?_eq_some found
  rw [invalid key current] at valid
  cases valid

/-! ## Opening with two keys -/

theorem openWithKeys_of_current {sealed text : Bytes} {current : Key}
    (opens : openSealed sealed current.secret = .ok text) (previous : Option Key) :
    openWithKeys sealed current previous = .ok text := by
  rw [openWithKeys, opens]

theorem openWithKeys_of_previous {sealed text : Bytes} {current previous : Key}
    (closed : ∀ text, openSealed sealed current.secret ≠ .ok text)
    (opens : openSealed sealed previous.secret = .ok text) :
    openWithKeys sealed current (some previous) = .ok text := by
  cases first : openSealed sealed current.secret with
  | ok text => exact absurd first (closed text)
  | error fault =>
      rw [openWithKeys, first]
      simp only [opens, mapError_ok]

theorem openWithKeys_of_neither {sealed : Bytes} (long : Gcm.nonceLength ≤ sealed.length)
    {current : Key} {previous : Option Key} (length : current.secret.length = keyLength)
    (closed : ∀ text, openSealed sealed current.secret ≠ .ok text)
    (stillClosed : ∀ key, previous = some key → ∀ text, openSealed sealed key.secret ≠ .ok text) :
    openWithKeys sealed current previous = .error .decryptionFailed := by
  rw [openWithKeys, openSealed_eq_aead long length closed]
  cases previous with
  | none => rfl
  | some key =>
      cases second : openSealed sealed key.secret with
      | ok text => exact absurd second (stillClosed key rfl text)
      | error fault => simp [second, openError]

theorem opened_of_openWithKeys {sealed text : Bytes} {ring : KeyRing} {current : Key}
    (isCurrent : ring.encryption.current = some current)
    (opens : openWithKeys sealed current ring.encryption.previous = .ok text) :
    ∃ key, (ring.encryption.current = some key ∨ ring.encryption.previous = some key) ∧
      openSealed sealed key.secret = .ok text := by
  unfold openWithKeys at opens
  cases first : openSealed sealed current.secret with
  | ok opened =>
      simp only [first] at opens
      obtain rfl := Except.ok.inj opens
      exact ⟨current, .inl isCurrent, first⟩
  | error fault =>
      simp only [first] at opens
      cases slot : ring.encryption.previous with
      | none => simp [slot] at opens
      | some previous =>
          simp only [slot] at opens
          exact ⟨previous, .inr rfl, mapError_eq_ok.1 opens⟩

/-- What has been sealed under one key opens under no other key of the ring. -/
def ClosedToOthers (keeper : Keeper σ) (key : Key) (sealed : Bytes) : Prop :=
  ∀ other, keeper.ring.encryption.current = some other ∨
    keeper.ring.encryption.previous = some other →
    other.id ≠ key.id → ∀ text, openSealed sealed other.secret ≠ .ok text

theorem openWithKeys_of_aged [LawfulKeyStore σ] {origin : Store} {keeper : Keeper σ}
    {keys : KeyTable} (line : Line origin keeper keys) {key current : Key} {age : Nat}
    (aged : Aged key keys age) (isCurrent : keeper.ring.encryption.current = some current)
    {sealed text : Bytes} (long : Gcm.nonceLength ≤ sealed.length)
    (opens : openSealed sealed key.secret = .ok text) (closed : ClosedToOthers keeper key sealed) :
    openWithKeys sealed current keeper.ring.encryption.previous =
      if age ≤ 1 then .ok text else .error .decryptionFailed := by
  have first : keys[0]? = some current := line.current.symm.trans isCurrent
  match age, aged with
  | 0, isFirst =>
      obtain rfl := Option.some.inj (first.symm.trans isFirst)
      exact openWithKeys_of_current opens _
  | 1, isSecond =>
      have differs : current.id ≠ key.id := by
        obtain ⟨_, isFirst⟩ := List.getElem?_eq_some_iff.1 first
        obtain ⟨_, isSecond⟩ := List.getElem?_eq_some_iff.1 isSecond
        rw [← isFirst, ← isSecond]
        exact List.pairwise_iff_getElem.1 line.distinct 0 1 _ _ Nat.zero_lt_one
      rw [line.previous, isSecond]
      exact openWithKeys_of_previous (closed current (.inl isCurrent) differs) opens
  | _ + 2, ⟨gone, newest, isFirst, length⟩ =>
      obtain rfl := Option.some.inj (first.symm.trans isFirst)
      have forgotten := line.forgotten gone
      rw [if_neg (by omega)]
      exact openWithKeys_of_neither long length
        (closed current (.inl isCurrent) (forgotten.current current isCurrent))
        fun other there => closed other (.inr there) (forgotten.previous other there)

theorem verifyEncrypted_of_generation [LawfulKeyStore σ] (service : TokenService) {origin : Store}
    {keeper answered : Keeper σ} {keys : KeyTable} {key signer : Key} {base : Nat}
    (line : Line origin keeper keys) (generation : Generation origin keeper keys key base)
    (known : keeper.ring.signing.all.find? signer.id = some signer) {claims : Claims}
    (encodable : claims.Encodable) {issued now : Instant} {nonce : Drawn Nonce} {sealed : Bytes}
    (sealedOk : sealText (encodeClaims (service.stamp claims issued)) key.secret nonce = .ok sealed)
    {entropy : Entropy} {outcome : Except Error Claims}
    (verified : perform (service.verifyEncrypted
      (signedToken (named .encrypted signer) sealed signer.secret) none none now entropy) keeper =
        (outcome, answered))
    (ready : ∃ current, (perform (currentEncryptionKey now entropy.encryptionKey) keeper).1 =
      .ok current)
    (fresh : FreshIds origin answered.trail) (closed : ClosedToOthers answered key sealed) :
    (encryptionMints answered.trail - base ≤ 1 →
      outcome = service.verdict (service.stamp claims issued) now) ∧
    (2 ≤ encryptionMints answered.trail - base →
      outcome = .error .decryptionFailed ∧ answered.Forgotten key) := by
  obtain ⟨current, ready⟩ := ready
  rcases asked : perform (currentEncryptionKey now entropy.encryptionKey) keeper with ⟨first, last⟩
  rw [asked] at ready
  obtain rfl : first = .ok current := ready
  have long := nonceLength_le_of_sealText sealedOk
  rw [verifyEncrypted_signedToken service known long asked] at verified
  obtain ⟨isOutcome, rfl⟩ := Prod.mk.inj verified
  have step := currentEncryptionKey_step asked
  obtain ⟨later, passes⟩ := step.passes line fresh
  have generation := passes.generation generation
  rw [openWithKeys_of_aged passes.line generation.aged_sub step.current long
    (openSealed_of_sealText sealedOk) closed] at isOutcome
  refine ⟨fun young => ?_, fun old => ⟨?_, generation.forgotten passes.line old⟩⟩
  · rw [if_pos young, ok_bind] at isOutcome
    rw [← isOutcome]
    exact service.acceptClaims_encodeClaims encodable service issued now
  · rw [if_neg (by omega), error_bind] at isOutcome
    exact isOutcome.symm

end TokenService

/-! ## One rotation -/

open TokenService World

def World.rotations (earlier later : World) : Nat :=
  encryptionMints later.keeper.trail - encryptionMints earlier.keeper.trail

/-- Let a token be sealed with a key of the ring, after any run from a filled store whose encryption
keys can be put in order, and let the run go on in any way in which no reload comes between a
rotation that fails and the next that succeeds. Let the token then be verified, with no two keys
minted under one identifier. If the ring can come up with a valid key, and what has been sealed opens
under no other key, then the token is answered with a verdict on its claims while at most one rotation
has happened since, that of the call included, and as one that does not decrypt from then on. After
two rotations its key is gone, whether or not the call gets that far. -/
theorem encrypted_token_lasts_one_rotation (service : TokenService) {store : Store}
    (filled : Filled store) (dated : Dated store .encryption) (clock : Instant)
    (before later : List Action) {claims : Claims} (encodable : claims.Encodable)
    (entropy request : Entropy) {token : String} {sealer issuer verifier answered : World}
    (isSealer : sealer = (start store clock).run service before)
    (issued : (perform (service.signEncrypted claims none none sealer.clock entropy)
      sealer.keeper).1 = .ok token)
    (isIssuer : issuer = sealer.step service (.signEncrypted claims none none entropy))
    (isVerifier : verifier = issuer.run service later)
    (isAnswered : answered = verifier.step service (.verifyEncrypted token none none request))
    (settled : Settled service (start store clock)
      (before ++ .signEncrypted claims none none entropy :: later))
    (fresh : FreshIds store answered.keeper.trail) :
    ∃ key sealed signer, issuer.keeper.ring.encryption.current = some key ∧
      sealText (encodeClaims (service.stamp claims sealer.clock)) key.secret entropy.payload =
        .ok sealed ∧
      token = signedToken (named .encrypted signer) sealed signer.secret ∧
      (2 ≤ rotations issuer verifier → verifier.keeper.Forgotten key) ∧
      ((∃ current, (perform (currentEncryptionKey verifier.clock request.encryptionKey)
          verifier.keeper).1 = .ok current) → ClosedToOthers answered.keeper key sealed →
        (rotations issuer answered ≤ 1 →
          (perform (service.verifyEncrypted token none none verifier.clock request)
            verifier.keeper).1 = service.verdict (service.stamp claims sealer.clock) verifier.clock) ∧
        (2 ≤ rotations issuer answered →
          (perform (service.verifyEncrypted token none none verifier.clock request)
            verifier.keeper).1 = .error .decryptionFailed ∧ answered.keeper.Forgotten key)) := by
  rcases signed : perform (service.signEncrypted claims none none sealer.clock entropy)
    sealer.keeper with ⟨outcome, after⟩
  rw [signed] at issued
  obtain rfl : outcome = .ok token := issued
  obtain ⟨key, sealed, signer, between, encryption, sealedOk, signing, rfl⟩ :=
    signEncrypted_eq_ok signed
  have left : issuer.keeper = after := by rw [isIssuer, keeper_signEncrypted, signed]
  have current : issuer.keeper.ring.encryption.current = some key := by
    rw [left, signing.slots, encryption.current]
  -- The run up to the call, cut right after the token was issued.
  have isRun : issuer = (start store clock).run service
      (before ++ [.signEncrypted claims none none entropy]) := by
    rw [isIssuer, run_append, isSealer]
    rfl
  have isWhole : verifier = (start store clock).run service
      ((before ++ [.signEncrypted claims none none entropy]) ++ later) := by
    rw [run_append, ← isRun, isVerifier]
  obtain ⟨events, trail⟩ := trail_step service verifier
    (.verifyEncrypted (signedToken (named .encrypted signer) sealed signer.secret) none none request)
  have freshSoFar : FreshIds store verifier.keeper.trail :=
    FreshIds.of_append (trail ▸ isAnswered ▸ fresh)
  have known : verifier.keeper.ring.signing.all.find? signer.id = some signer := by
    rw [isVerifier] at freshSoFar ⊢
    rw [isSealer] at encryption
    exact known_after_run service filled clock before later (.single (.encryption encryption))
      signing left freshSoFar
  obtain ⟨keys, line, generation⟩ := generation_of_current service filled dated clock
    (by rw [List.append_assoc]; exact settled) (isRun ▸ current) (isWhole ▸ freshSoFar)
  rw [← isRun, ← isWhole] at generation
  rw [← isWhole] at line
  refine ⟨key, sealed, signer, current, sealedOk, rfl, generation.forgotten line,
    fun ready closed => ?_⟩
  rcases verified : perform (service.verifyEncrypted
    (signedToken (named .encrypted signer) sealed signer.secret) none none verifier.clock request)
    verifier.keeper with ⟨outcome, last⟩
  have isLast : answered.keeper = last := by rw [isAnswered, keeper_verifyEncrypted, verified]
  rw [isLast] at fresh closed ⊢
  rw [rotations, isLast]
  exact verifyEncrypted_of_generation service line generation known encodable sealedOk verified ready
    fresh closed

/-! ## A sample -/

def sampleText : Bytes := encodeClaims .empty

theorem openSealed_sampleText {sealed : Bytes}
    (underKey : sealText sampleText (sampleSecret 1).bytes (.ok (sampleNonce 1)) = .ok sealed)
    (text : Bytes) : openSealed sealed (sampleSecret 3).bytes ≠ .ok text := by
  have closed : (sealText sampleText (sampleSecret 1).bytes (.ok (sampleNonce 1)) >>= fun sealed =>
      openSealed sealed (sampleSecret 3).bytes).isOk = false := by decide +kernel
  rw [underKey, ok_bind] at closed
  intro opened
  rw [opened] at closed
  cases closed

def importedKey : Key := ⟨(sampleDraw 9).id, [9], .epoch⟩

def sampleStore : Store :=
  (perform (save .encryption importedKey (sampleDraw 9).nonce) (Store.memory .empty)).2

def sampleService : TokenService := .ofDomain "example.org" ⟨false⟩

def sampleIssuer : World :=
  (start sampleStore .epoch).step sampleService (.signEncrypted .empty none none (sampleEntropy 1))

def sampleRest : List Action :=
  [.setClock (sampleYear 1), .currentEncryptionKey (sampleDraw 3), .setClock (sampleYear 2),
    .currentEncryptionKey (sampleDraw 4)]

theorem filled_sampleStore : Filled sampleStore :=
  .saved (.memory false false) .encryption importedKey (sampleDraw 9).nonce

theorem dated_sampleStore : Dated sampleStore .encryption := ⟨by decide, by decide⟩

theorem fresh_sampleRest :
    FreshIds sampleStore (sampleIssuer.run sampleService sampleRest).keeper.trail := by decide

theorem encrypted_token_opens_until_its_key_is_gone :
    ∃ token key,
      (perform (sampleService.signEncrypted .empty none none .epoch (sampleEntropy 1))
        (start sampleStore .epoch).keeper).1 = .ok token ∧
      sampleIssuer.keeper.ring.encryption.current = some key ∧
      (perform (sampleService.verifyEncrypted token none none .epoch (sampleEntropy 5))
        sampleIssuer.keeper).1 = .ok ⟨some "https://example.org", some 0, none, []⟩ ∧
      (sampleIssuer.run sampleService sampleRest).keeper.Forgotten key := by
  obtain ⟨token, issued⟩ : ∃ token, (perform (sampleService.signEncrypted .empty none none .epoch
    (sampleEntropy 1)) (start sampleStore .epoch).keeper).1 = .ok token := ⟨_, rfl⟩
  -- Neither call has to rotate, so that neither changes anything.
  have atOnce : (sampleIssuer.step sampleService (.verifyEncrypted token none none
      (sampleEntropy 5))).keeper = sampleIssuer.keeper :=
    verifyEncrypted_of_valid sampleService rfl
  have atLast : ((sampleIssuer.run sampleService sampleRest).step sampleService (.verifyEncrypted
      token none none (sampleEntropy 5))).keeper =
      (sampleIssuer.run sampleService sampleRest).keeper :=
    verifyEncrypted_of_valid sampleService rfl
  obtain ⟨events, trail⟩ := trail_run sampleService sampleIssuer sampleRest
  obtain ⟨key, sealed, -, current, -, -, -, verified⟩ :=
    encrypted_token_lasts_one_rotation sampleService filled_sampleStore dated_sampleStore .epoch
      [] [] Claims.encodable_empty (sampleEntropy 1) (sampleEntropy 5) rfl issued
      (rfl : sampleIssuer = _) (rfl : sampleIssuer = _) rfl ⟨nofun, trivial⟩
      (atOnce ▸ FreshIds.of_append (trail ▸ fresh_sampleRest))
  obtain ⟨other, -, -, same, -, -, forgotten, -⟩ :=
    encrypted_token_lasts_one_rotation sampleService filled_sampleStore dated_sampleStore .epoch
      [] sampleRest Claims.encodable_empty (sampleEntropy 1) (sampleEntropy 5) rfl issued
      (rfl : sampleIssuer = _) rfl rfl ⟨nofun, nofun, nofun, nofun, nofun, trivial⟩
      (atLast ▸ fresh_sampleRest)
  obtain rfl : key = other := Option.some.inj (current.symm.trans same)
  refine ⟨token, key, issued, current, ?_, forgotten (by decide)⟩
  refine (verified ⟨_, rfl⟩ ?_).1 ?_
  · rw [atOnce]
    rintro other (isCurrent | isPrevious) differs
    · obtain rfl := Option.some.inj (isCurrent.symm.trans current)
      exact absurd rfl differs
    · obtain rfl : importedKey = other := Option.some.inj isPrevious
      exact openSealed_ne_ok_of_length (by decide)
  · rw [rotations, atOnce, Nat.sub_self]
    exact Nat.zero_le 1

end Bearer
