import Bearer.Proofs.Key.Expiry
import Bearer.Proofs.Key.Signing
import Bearer.Proofs.Token.Issue
/-!
# Usable keys

* `SignsUsable`: whatever is signed is signed under a usable key (`signsUsable`).
* `VerifiesUsable`: whatever is accepted carries a MAC under a usable key. That is so exactly when all
  signing keys that the ring knows are fit for use (`verifiesUsable_iff`): whoever knows the secret of a
  key can write a token that is accepted, and everybody knows the empty one.
* `macs_usable_iff`: both along a run.
-/

namespace Bearer

open Keeper KeyStore

inductive MacKey where
  | own (secret : Bytes)
  | ofRing (key : Key)

namespace MacKey

def secret : MacKey → Bytes
  | .own secret => secret
  | .ofRing key => key.secret

def Usable : MacKey → Prop
  | .own secret => secret ≠ []
  | .ofRing key => key.Fit

end MacKey

def KeyRing.SigningFit (ring : KeyRing) : Prop :=
  ∀ id key, ring.signing.all.find? id = some key → key.Fit

namespace TokenService

/-! ## Signing -/

def SignedBy (ring : KeyRing) (signingKey : Option Bytes) (token : String) (mac : MacKey) : Prop :=
  (∃ header payload, token = signedToken header payload mac.secret) ∧
    match mac with
    | .own secret => explicit signingKey = some secret
    | .ofRing key => explicit signingKey = none ∧ ring.signing.current = some key

structure SignsUsable {σ : Type} [KeyStore σ] (service : TokenService) (keeper : Keeper σ) :
    Prop where
  plain {claims signingKey now entropy token after}
    (done : perform (service.signPlain claims signingKey now entropy) keeper = (.ok token, after)) :
    ∃ mac, SignedBy after.ring signingKey token mac ∧ mac.Usable
  encrypted {claims encryptionKey signingKey now entropy token after}
    (done : perform (service.signEncrypted claims encryptionKey signingKey now entropy) keeper =
      (.ok token, after)) :
    ∃ mac, SignedBy after.ring signingKey token mac ∧ mac.Usable

section Signing

variable {σ : Type} [KeyStore σ]

theorem fit_of_signingStep {keeper after : Keeper σ} {now : Instant} {draw : KeyDraw} {key : Key}
    (step : SigningStep keeper now draw (.ok key) after) :
    after.ring.signing.current = some key ∧ key.Fit := by
  cases step with
  | valid current valid => exact ⟨current, (Key.isValid_iff.1 valid).1⟩
  | minted minted _ => exact ⟨rfl, Key.fit_of_mint minted⟩

theorem usable_of_sealEnvelope {header : Header} {payload : Bytes} {signingKey : Option Bytes}
    {now : Instant} {draw : KeyDraw} {keeper after : Keeper σ} {token : String}
    (done : perform (sealEnvelope header payload signingKey now draw) keeper = (.ok token, after)) :
    ∃ mac, SignedBy after.ring signingKey token mac ∧ mac.Usable := by
  cases given : explicit signingKey with
  | some secret =>
      simp only [sealEnvelope, given, perform_pure] at done
      obtain ⟨isToken, rfl⟩ := Prod.mk.inj done
      refine ⟨.own secret, ⟨⟨header, payload, (Except.ok.inj isToken).symm⟩, given⟩, ?_⟩
      exact (explicit_eq_some_iff.1 given).2
  | none =>
      have unnamed : (sealEnvelope header payload signingKey now draw : KeeperM σ String) =
          sealEnvelope header payload none now draw := by
        simp only [sealEnvelope, given, explicit_none]
      rw [unnamed] at done
      obtain ⟨key, step, isToken⟩ := sealEnvelope_eq_ok done
      obtain ⟨isCurrent, fit⟩ := fit_of_signingStep step
      exact ⟨.ofRing key, ⟨⟨_, _, isToken⟩, given, isCurrent⟩, fit⟩

theorem signsUsable (service : TokenService) (keeper : Keeper σ) : SignsUsable service keeper where
  plain done := usable_of_sealEnvelope done
  encrypted done := by
    unfold signEncrypted at done
    split at done
    · obtain ⟨_, _, _, rest⟩ := perform_bind_eq_ok.1 done
      obtain ⟨_, _, _, last⟩ := perform_bind_eq_ok.1 rest
      exact usable_of_sealEnvelope last
    · obtain ⟨_, _, _, rest⟩ := perform_bind_eq_ok.1 done
      obtain ⟨_, _, _, last⟩ := perform_bind_eq_ok.1 rest
      exact usable_of_sealEnvelope last

end Signing

/-! ## Verifying -/

inductive Selected (ring : KeyRing) (header : Header) (signingKey : Option Bytes) : MacKey → Prop where
  | own {secret : Bytes} (given : explicit signingKey = some secret) :
      Selected ring header signingKey (.own secret)
  | ofRing {kid : String} {id : Uuid} {key : Key} (absent : explicit signingKey = none)
      (hasKid : header.kid = some kid) (read : Uuid.read kid = .ok id)
      (known : ring.signing.all.find? id = some key) : Selected ring header signingKey (.ofRing key)

theorem Selected.unique {ring : KeyRing} {header : Header} {signingKey : Option Bytes}
    {mac other : MacKey} (selected : Selected ring header signingKey mac)
    (again : Selected ring header signingKey other) : mac = other := by
  cases selected with
  | own given =>
      cases again with
      | own givenAgain => rw [Option.some.inj (given.symm.trans givenAgain)]
      | ofRing absent =>
          rw [given] at absent
          cases absent
  | ofRing absent hasKid read known =>
      cases again with
      | own given =>
          rw [given] at absent
          cases absent
      | ofRing _ hasKidAgain readAgain knownAgain =>
          obtain rfl := Option.some.inj (hasKid.symm.trans hasKidAgain)
          obtain rfl := Except.ok.inj (read.symm.trans readAgain)
          rw [Option.some.inj (known.symm.trans knownAgain)]

def VerifiedBy (ring : KeyRing) (signingKey : Option Bytes) (token : String) (mac : MacKey) : Prop :=
  ∃ header envelope, Envelope.split token = .ok envelope ∧ envelope.header = .ok header ∧
    Selected ring header signingKey mac ∧ envelope.signature64 = macSegment envelope mac.secret

theorem VerifiedBy.unique {ring : KeyRing} {signingKey : Option Bytes} {token : String}
    {mac other : MacKey} (verified : VerifiedBy ring signingKey token mac)
    (again : VerifiedBy ring signingKey token other) : mac = other := by
  obtain ⟨header, envelope, cut, read, selected, -⟩ := verified
  obtain ⟨headerAgain, envelopeAgain, cutAgain, readAgain, selectedAgain, -⟩ := again
  obtain rfl := Except.ok.inj (cut.symm.trans cutAgain)
  obtain rfl := Except.ok.inj (read.symm.trans readAgain)
  exact selected.unique selectedAgain

theorem VerifiedBy.usable {ring : KeyRing} {signingKey : Option Bytes} {token : String}
    {mac : MacKey} (verified : VerifiedBy ring signingKey token mac)
    (fit : ring.SigningFit) : mac.Usable := by
  obtain ⟨header, envelope, -, -, selected, -⟩ := verified
  cases selected with
  | own given => exact (explicit_eq_some_iff.1 given).2
  | ofRing _ _ _ known => exact fit _ _ known

theorem Authentic.verifiedBy {ring : KeyRing} {token : String} {signingKey : Option Bytes}
    {header : Header} {envelope : Envelope}
    (authentic : Authentic ring token signingKey header envelope) :
    ∃ mac, VerifiedBy ring signingKey token mac := by
  obtain ⟨secret, isSecret, signed⟩ := authentic.signed
  cases isSecret with
  | own given =>
      exact ⟨.own secret, header, envelope, authentic.cut, authentic.read,
        .own (explicit_eq_some_iff.2 ⟨rfl, given⟩), signed⟩
  | named absent hasKid read known =>
      exact ⟨.ofRing _, header, envelope, authentic.cut, authentic.read,
        .ofRing (explicit_eq_none_iff.2 absent) hasKid read known, signed⟩

structure VerifiesUsable {σ : Type} [KeyStore σ] (service : TokenService) (keeper : Keeper σ) :
    Prop where
  plain {token signingKey now claims}
    (accepted : service.verifyPlain keeper.ring token signingKey now = .ok claims) :
    ∃ mac, VerifiedBy keeper.ring signingKey token mac ∧ mac.Usable
  encrypted {token encryptionKey signingKey now entropy claims}
    (accepted : (perform (service.verifyEncrypted token encryptionKey signingKey now entropy)
      keeper).1 = .ok claims) :
    ∃ mac, VerifiedBy keeper.ring signingKey token mac ∧ mac.Usable

/-! ## Forging -/

def lastingClaims (now : Instant) : Claims := { Claims.empty with exp := some now.second }

theorem encodable_lastingClaims (now : Instant) : (lastingClaims now).Encodable :=
  Claims.encodable_empty.expiresAt now

/-- Whoever knows the secret of a key can write a token that is accepted, at any time and under any
policy. -/
theorem forged (service : TokenService) {ring : KeyRing} {key : Key}
    (known : ring.signing.all.find? key.id = some key) (now : Instant) :
    let token := signedToken (named .plain key)
      (encodeClaims (service.stamp (lastingClaims now) now)) key.secret
    service.verifyPlain ring token none now = .ok (service.stamp (lastingClaims now) now) ∧
      VerifiedBy ring none token (.ofRing key) := by
  constructor
  · rw [verifyPlain_signedToken service known (encodable_lastingClaims now)]
    exact if_pos (Int.le_refl now.second)
  · have authentic := authentic_signedToken (encodeClaims (service.stamp (lastingClaims now) now))
      (rfl : Header.plain.alg = Header.hs256) known
    exact ⟨_, _, authentic.cut, authentic.read,
      .ofRing explicit_none rfl (Uuid.read_text key.id) known, rfl⟩

theorem verifiesUsable_iff {σ : Type} [KeyStore σ] (service : TokenService) (keeper : Keeper σ) :
    VerifiesUsable service keeper ↔ keeper.ring.SigningFit := by
  constructor
  · intro usable id key found
    have known : keeper.ring.signing.all.find? key.id = some key := by
      rw [KeyTable.id_of_find? found, found]
    obtain ⟨accepted, verified⟩ := forged service known .epoch
    obtain ⟨mac, verifiedAgain, isUsable⟩ := usable.plain accepted
    rw [verifiedAgain.unique verified] at isUsable
    exact isUsable
  · intro fit
    constructor
    · intro token signingKey now claims accepted
      obtain ⟨header, envelope, payload, authentic, -⟩ := verifyPlain_eq_ok_iff.1 accepted
      obtain ⟨mac, verified⟩ := authentic.verifiedBy
      exact ⟨mac, verified, verified.usable fit⟩
    · intro token encryptionKey signingKey now entropy claims accepted
      obtain ⟨header, envelope, authentic, -⟩ := authentic_of_verifyEncrypted accepted
      obtain ⟨mac, verified⟩ := authentic.verifiedBy
      exact ⟨mac, verified, verified.usable fit⟩

end TokenService

/-! ## Runs -/

namespace Keeper

variable {σ : Type} [KeyStore σ]

theorem SigningStep.signingFit {keeper after : Keeper σ} {now : Instant} {draw : KeyDraw}
    {outcome : Except Error Key} (step : SigningStep keeper now draw outcome after)
    (fit : keeper.ring.SigningFit) : after.ring.SigningFit := by
  cases step with
  | valid | undrawn | calendarEnds | unsaved => exact fit
  | @minted key store minted saved =>
      intro id other known
      rw [KeyRing.installSigningKey, KeyTable.find?_insert] at known
      split at known
      · obtain rfl := Option.some.inj known
        exact Key.fit_of_mint minted
      · exact fit id other known

theorem EncryptionStep.signing {keeper after : Keeper σ} {now : Instant} {draw : KeyDraw}
    {outcome : Except Error Key} (step : EncryptionStep keeper now draw outcome after) :
    after.ring.signing = keeper.ring.signing := by
  cases step <;> rfl

theorem Moves.signingFit {keeper after : Keeper σ} (moves : Moves keeper after)
    (fit : keeper.ring.SigningFit) : after.ring.SigningFit := by
  induction moves with
  | refl => exact fit
  | tail _ move ih =>
      cases move with
      | signing step => exact step.signingFit ih
      | encryption step =>
          intro id key known
          rw [step.signing] at known
          exact ih id key known

theorem signingFit_reload [LawfulKeyStore σ] {keeper : Keeper σ} (coherent : keeper.Coherent)
    (fit : keeper.ring.SigningFit) : keeper.reload.ring.SigningFit := by
  intro id key known
  rw [reload_of_sound coherent.sound] at known
  exact fit id key ((coherent.agree id).trans known)

end Keeper

namespace World

theorem signingFit_run (service : TokenService) {world : World} (coherent : world.keeper.Coherent)
    (fit : world.keeper.ring.SigningFit) (actions : List Action) :
    (world.run service actions).keeper.ring.SigningFit := by
  induction actions generalizing world with
  | nil => exact fit
  | cons action actions ih =>
      apply ih (step_coherent_extends service coherent action).1
      by_cases again : action = .reload
      · subst again
        exact signingFit_reload coherent fit
      · cases effect_of_step service world again with
        | moves moves => exact moves.signingFit fit
        | disturbed breaks same =>
            rw [same]
            exact fit

theorem signingFit_start {store : Store} (sound : LawfulKeyStore.Sound store) (clock : Instant) :
    (start store clock).keeper.ring.SigningFit ↔ ∀ key ∈ table store .signing, key.Fit := by
  have ready : LawfulKeyStore.Sound (Unreliable.mk store []) := sound
  have known (id : Uuid) : (start store clock).keeper.ring.signing.all.find? id =
      held store .signing id := by
    rw [start, reload_of_sound ready]
    rfl
  simp only [KeyRing.SigningFit, known]
  constructor
  · intro fit key inside
    exact fit key.id key ((LawfulKeyStore.readable sound .signing).2.find?_of_mem inside)
  · intro fit id key found
    exact fit key (KeyTable.mem_of_find? found)

end World

open TokenService World

/-- Whatever the store has, and whatever happens to a service that has been loaded from it: tokens are
signed under usable keys only, and they are accepted under usable keys only exactly as long as all
signing keys that the ring knows are fit for use. If the store is sound, that is always so exactly if it
is so of the signing keys that the store has at the start. -/
theorem macs_usable_iff (service : TokenService) (store : Store) (clock : Instant) :
    (∀ actions, SignsUsable service ((start store clock).run service actions).keeper) ∧
      (∀ actions, VerifiesUsable service ((start store clock).run service actions).keeper ↔
        ((start store clock).run service actions).keeper.ring.SigningFit) ∧
      (LawfulKeyStore.Sound store →
        ((∀ actions, VerifiesUsable service ((start store clock).run service actions).keeper) ↔
          ∀ key ∈ table store .signing, key.Fit)) := by
  refine ⟨fun actions => signsUsable service _, fun actions => verifiesUsable_iff service _, ?_⟩
  intro sound
  have ready : LawfulKeyStore.Sound (Unreliable.mk store []) := sound
  simp only [verifiesUsable_iff]
  rw [← signingFit_start sound clock]
  constructor
  · intro always
    exact always []
  · intro fit actions
    exact signingFit_run service (coherent_reload ready) fit actions

def keyedStore (key : Key) : Store :=
  (perform (save .signing key (sampleDraw 0).nonce) (Store.memory .empty)).2

theorem expired_key_is_usable :
    ∀ actions, VerifiesUsable (.ofDomain "example.org" ⟨true⟩)
      ((start (keyedStore (sampleKey 4 0)) (sampleDay 1)).run (.ofDomain "example.org" ⟨true⟩)
        actions).keeper := by
  obtain ⟨-, -, always⟩ := macs_usable_iff (.ofDomain "example.org" ⟨true⟩)
    (keyedStore (sampleKey 4 0)) (sampleDay 1)
  have filled : Filled (keyedStore (sampleKey 4 0)) := .saved (.memory false false) .signing _ _
  exact (always filled.sound).2 (by decide)

def secretlessKey : Key := ⟨(sampleDraw 4).id, [], sampleDay 0⟩

def forgedToken : String :=
  signedToken (named .plain secretlessKey) (encodeClaims ((TokenService.ofDomain "example.org"
    ⟨true⟩).stamp (lastingClaims (sampleDay 1)) (sampleDay 1))) []

theorem forged_token_is_accepted :
    (∃ claims, (TokenService.ofDomain "example.org" ⟨true⟩).verifyPlain
        (start (keyedStore secretlessKey) (sampleDay 1)).keeper.ring forgedToken none (sampleDay 1) =
          .ok claims) ∧
      VerifiedBy (start (keyedStore secretlessKey) (sampleDay 1)).keeper.ring none forgedToken
        (.ofRing secretlessKey) ∧
      secretlessKey.secret = [] := by
  have known : (start (keyedStore secretlessKey) (sampleDay 1)).keeper.ring.signing.all.find?
      secretlessKey.id = some secretlessKey := by decide
  obtain ⟨accepted, verified⟩ := forged (.ofDomain "example.org" ⟨true⟩) known (sampleDay 1)
  exact ⟨⟨_, accepted⟩, verified, rfl⟩

end Bearer
