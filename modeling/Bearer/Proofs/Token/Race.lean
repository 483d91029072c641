import Bearer.Proofs.Key.Race
import Bearer.Proofs.Token.Encrypted
/-!
# Verification that races with rotations

* `Verification.advance`: a call to verify an encrypted token with keys of the ring, in its sections.
  One that is not interrupted does what the whole call does (`run_alone`).
* `Scene`: such a call among callers that ask for the encryption key. While the key of the token stays
  in a slot the call finds it, wherever the rotations come (`racing_verification_opens`).
-/

namespace Bearer

open KeyStore Keeper TokenService

/-! ## Parts of a verification -/

namespace TokenService

def reopen (sealed : Bytes) (fault : CryptoError) : Option Key → Except Error Bytes
  | none => .error (openError fault)
  | some key => (openSealed sealed key.secret).mapError fun _ => openError fault

theorem openWithKeys_eq (sealed : Bytes) (current : Key) (previous : Option Key) :
    openWithKeys sealed current previous = match openSealed sealed current.secret with
      | .ok text => .ok text
      | .error fault => reopen sealed fault previous := by
  unfold openWithKeys reopen
  cases openSealed sealed current.secret <;> cases previous <;> rfl

theorem unwrap_congr {ring other : KeyRing} (same : ring.signing = other.signing) (token : String)
    (signingKey : Option Bytes) : unwrap ring token signingKey = unwrap other token signingKey := by
  simp only [unwrap, openEnvelope, verificationSecret, KeyRing.signingKey, same]

theorem perform_openWithRing {σ : Type} [KeyStore σ] {request : Request}
    (encryption : request.keyClass = .encryption) (sealed : Bytes) (keeper : Keeper σ) :
    perform (openWithRing sealed request.now request.draw) keeper =
      match perform request.ask keeper with
      | (.error fault, after) => (.error fault, after)
      | (.ok current, after) => (openWithKeys sealed current after.ring.encryption.previous, after) := by
  have isAsk : perform request.ask keeper =
      perform (currentEncryptionKey request.now request.draw) keeper := by
    rw [Request.ask, encryption]
  rw [openWithRing, perform_bind, isAsk]
  rcases perform (currentEncryptionKey request.now request.draw) keeper with ⟨_ | _, after⟩ <;> rfl

end TokenService

/-! ## Sections -/

structure Verification where
  token : String
  signingKey : Option Bytes
  now : Instant
  draw : KeyDraw

inductive Stage where
  | called
  | checking (sealed : Bytes)
  | waiting (sealed : Bytes)
  | retrying (sealed : Bytes) (fault : CryptoError)
  | ended (outcome : Except Error Bytes)

def Stage.asked (sealed : Bytes) : Caller → Stage
  | .ready => .checking sealed
  | .waiting => .waiting sealed
  | .answered (.error fault) => .ended (.error fault)
  | .answered (.ok current) =>
      match openSealed sealed current.secret with
      | .ok text => .ended (.ok text)
      | .error fault => .retrying sealed fault

namespace Verification

variable {σ : Type} [KeyStore σ]

def request (call : Verification) : Request := ⟨.encryption, call.now, call.draw⟩

/-- The next section of a verification, with what can be done without a lock after it. -/
def advance (call : Verification) (keeper : Keeper σ) : Stage → Stage × Keeper σ
  | .called =>
      match unwrap keeper.ring call.token call.signingKey with
      | .ok sealed => (.checking sealed, keeper)
      | .error fault => (.ended (.error fault), keeper)
  | .checking sealed =>
      let (caller, keeper) := call.request.advance keeper .ready
      (.asked sealed caller, keeper)
  | .waiting sealed =>
      let (caller, keeper) := call.request.advance keeper .waiting
      (.asked sealed caller, keeper)
  | .retrying sealed fault => (.ended (reopen sealed fault keeper.ring.encryption.previous), keeper)
  | .ended outcome => (.ended outcome, keeper)

/-! ## What is left of a verification -/

def finish (call : Verification) (keeper : Keeper σ) : Stage → Except Error Bytes × Keeper σ
  | .called =>
      match unwrap keeper.ring call.token call.signingKey with
      | .ok sealed => perform (openWithRing sealed call.now call.draw) keeper
      | .error fault => (.error fault, keeper)
  | .checking sealed => perform (openWithRing sealed call.now call.draw) keeper
  | .waiting sealed =>
      match perform call.request.rotate keeper with
      | (.error fault, after) => (.error fault, after)
      | (.ok current, after) => (openWithKeys sealed current after.ring.encryption.previous, after)
  | .retrying sealed fault => (reopen sealed fault keeper.ring.encryption.previous, keeper)
  | .ended outcome => (outcome, keeper)

theorem finish_asked (call : Verification) (keeper : Keeper σ) (sealed : Bytes) (current : Key) :
    call.finish keeper (.asked sealed (.answered (.ok current))) =
      (openWithKeys sealed current keeper.ring.encryption.previous, keeper) := by
  rw [openWithKeys_eq, Stage.asked]
  cases openSealed sealed current.secret <;> rfl

theorem finish_advance (call : Verification) (keeper : Keeper σ) (stage : Stage) :
    call.finish (call.advance keeper stage).2 (call.advance keeper stage).1 =
      call.finish keeper stage := by
  cases stage with
  | called =>
      cases opened : unwrap keeper.ring call.token call.signingKey <;>
        simp only [advance, finish, opened]
  | checking sealed =>
      have isAsk : call.finish keeper (.checking sealed) = _ :=
        perform_openWithRing (show call.request.keyClass = .encryption from rfl) sealed keeper
      cases found : call.request.valid? keeper.ring with
      | some key =>
          simp only [advance, Request.advance, found, finish_asked]
          rw [isAsk, Request.ask_of_valid found]
      | none =>
          simp only [advance, Request.advance, found, Stage.asked]
          rw [isAsk, Request.ask_of_invalid found, finish]
  | waiting sealed =>
      simp only [advance, Request.advance]
      rw [finish]
      rcases perform call.request.rotate keeper with ⟨fault | current, after⟩
      · rfl
      · exact call.finish_asked after sealed current
  | retrying sealed fault => rfl
  | ended outcome => rfl

theorem keeper_advance_asked (call : Verification) (keeper : Keeper σ) (sealed : Bytes)
    (current : Key) :
    (call.advance keeper (.asked sealed (.answered (.ok current)))).2 = keeper := by
  rw [Stage.asked]
  cases openSealed sealed current.secret <;> rfl

def left : Stage → Nat
  | .called => 4
  | .checking _ => 3
  | .waiting _ => 2
  | .retrying _ _ => 1
  | .ended _ => 0

theorem left_asked (sealed : Bytes) (outcome : Except Error Key) :
    left (.asked sealed (.answered outcome)) ≤ 1 := by
  cases outcome with
  | error fault => exact Nat.zero_le 1
  | ok current =>
      rw [Stage.asked]
      cases openSealed sealed current.secret with
      | error fault => exact Nat.le_refl 1
      | ok text => exact Nat.zero_le 1

theorem left_advance (call : Verification) (keeper : Keeper σ) (stage : Stage) :
    left (call.advance keeper stage).1 ≤ left stage - 1 := by
  cases stage with
  | called =>
      cases opened : unwrap keeper.ring call.token call.signingKey <;>
        simp [advance, left, opened]
  | checking sealed =>
      cases found : call.request.valid? keeper.ring with
      | some key =>
          simp only [advance, Request.advance, found]
          exact Nat.le_trans (left_asked sealed _) (Nat.le_succ 1)
      | none =>
          simp only [advance, Request.advance, found]
          exact Nat.le_refl 2
  | waiting sealed => exact left_asked sealed _
  | retrying sealed fault => exact Nat.le_refl 0
  | ended outcome => exact Nat.le_refl 0

theorem ended_of_left {stage : Stage} (done : left stage = 0) : ∃ outcome, stage = .ended outcome := by
  cases stage with
  | ended outcome => exact ⟨outcome, rfl⟩
  | _ => cases done

end Verification

/-! ## Scenes -/

structure Scene (σ : Type) (n : Nat) where
  race : Race σ n
  stage : Stage

namespace Scene

variable {σ : Type} [KeyStore σ] {n : Nat}

def turn (requests : Fin n → Request) (call : Verification) (scene : Scene σ n) :
    Option (Fin n) → Scene σ n
  | some i => { scene with race := scene.race.turn requests i }
  | none =>
      let (stage, keeper) := call.advance scene.race.keeper scene.stage
      ⟨{ scene.race with keeper }, stage⟩

def run (requests : Fin n → Request) (call : Verification) (scene : Scene σ n)
    (schedule : List (Option (Fin n))) : Scene σ n := schedule.foldl (turn requests call) scene

theorem run_concat (requests : Fin n → Request) (call : Verification) (scene : Scene σ n)
    (schedule : List (Option (Fin n))) (who : Option (Fin n)) :
    scene.run requests call (schedule ++ [who]) =
      (scene.run requests call schedule).turn requests call who := List.foldl_append

def ring (scene : Scene σ n) : KeyRing := scene.race.keeper.ring

theorem left_run (requests : Fin n → Request) (call : Verification) {scene : Scene σ n}
    (called : scene.stage = .called) (schedule : List (Option (Fin n))) :
    Verification.left (scene.run requests call schedule).stage ≤ 4 - schedule.count none := by
  induction schedule using List.reverseRecOn with
  | nil => exact Nat.le_of_eq (congrArg Verification.left called)
  | append_singleton schedule who ih =>
      rw [run_concat, List.count_append]
      cases who with
      | some i => exact ih
      | none =>
          have step := call.left_advance (scene.run requests call schedule).race.keeper
            (scene.run requests call schedule).stage
          change Verification.left (call.advance _ _).1 ≤ _
          rw [List.count_singleton_self]
          omega

theorem finish_run (requests : Fin n → Request) (call : Verification) (scene : Scene σ n)
    (turns : Nat) :
    call.finish (scene.run requests call (List.replicate turns none)).race.keeper
        (scene.run requests call (List.replicate turns none)).stage =
      call.finish scene.race.keeper scene.stage := by
  induction turns with
  | zero => rfl
  | succ turns ih =>
      rw [List.replicate_succ', run_concat, ← ih]
      exact call.finish_advance _ _

theorem run_alone (service : TokenService) (requests : Fin n → Request) (call : Verification)
    (entropy : Entropy) (ownDraw : entropy.encryptionKey = call.draw) {scene : Scene σ n}
    (called : scene.stage = .called) :
    ∃ outcome, (scene.run requests call (List.replicate 4 none)).stage = .ended outcome ∧
      perform (service.verifyEncrypted call.token none call.signingKey call.now entropy)
        scene.race.keeper = (outcome >>= fun text => service.acceptClaims text call.now,
          (scene.run requests call (List.replicate 4 none)).race.keeper) := by
  have left := left_run requests call called (List.replicate 4 none)
  obtain ⟨outcome, ended⟩ := Verification.ended_of_left (Nat.le_zero.1 left)
  refine ⟨outcome, ended, ?_⟩
  have whole := finish_run requests call scene 4
  rw [ended, called, Verification.finish, Verification.finish] at whole
  rw [verifyEncrypted_eq, ownDraw]
  cases opened : unwrap scene.race.keeper.ring call.token call.signingKey with
  | error fault =>
      simp only [opened] at whole ⊢
      obtain ⟨rfl, same⟩ := Prod.mk.inj whole
      rw [same]
      rfl
  | ok sealed =>
      simp only [opened, explicit_none] at whole ⊢
      rw [perform_bind, ← whole]
      cases outcome <;> rfl

end Scene

/-! ## A key that stays in a slot -/

/-- A request for an encryption key that can mint one, but not this one once more. -/
structure Request.Apart (request : Request) (key : Key) : Prop where
  encryption : request.keyClass = .encryption
  able : request.Able
  other : Key.mint request.now request.draw ≠ .ok key

structure KeyRing.Spares (key : Key) (ring after : KeyRing) : Prop where
  signing : after.signing = ring.signing
  previous : ring.encryption.previous = some key → after.Slotted key →
    after.encryption.previous = some key

theorem Request.Advanced.spares {σ : Type} [KeyStore σ] {request : Request} {key : Key}
    {keeper after : Keeper σ} {before caller : Caller} (apart : request.Apart key)
    (advanced : request.Advanced keeper before caller after) :
    KeyRing.Spares key keeper.ring after.ring := by
  cases advanced with
  | @rotates fresh _ _ rotated =>
      rw [rotated.ring, apart.encryption]
      refine ⟨rfl, fun _ slotted => slotted.resolve_left fun current => ?_⟩
      obtain rfl : fresh = key := Option.some.inj current
      exact apart.other rotated.minted
  | _ => exact ⟨rfl, fun previous _ => previous⟩

/-- A verification that can still come to open the payload. -/
inductive OnTrack (key : Key) (sealed text : Bytes) (ring : KeyRing) : Stage → Prop where
  | called : OnTrack key sealed text ring .called
  | checking : OnTrack key sealed text ring (.checking sealed)
  | waiting : OnTrack key sealed text ring (.waiting sealed)
  | retrying {fault : CryptoError} (previous : ring.encryption.previous = some key) :
      OnTrack key sealed text ring (.retrying sealed fault)
  | ended : OnTrack key sealed text ring (.ended (.ok text))

section OnTrack

variable {key : Key} {sealed text : Bytes}

theorem OnTrack.spared {ring after : KeyRing} {stage : Stage}
    (onTrack : OnTrack key sealed text ring stage) (spares : KeyRing.Spares key ring after)
    (slotted : (∀ outcome, stage ≠ .ended outcome) → after.Slotted key) :
    OnTrack key sealed text after stage := by
  cases onTrack with
  | called => exact .called
  | checking => exact .checking
  | waiting => exact .waiting
  | retrying previous => exact .retrying (spares.previous previous (slotted fun _ => nofun))
  | ended => exact .ended

theorem onTrack_answered {ring : KeyRing} {current : Key}
    (isCurrent : ring.encryption.current = some current)
    (opens : openSealed sealed key.secret = .ok text)
    (closed : ∀ other, ring.Slotted other → other.secret ≠ key.secret →
      ∀ text, openSealed sealed other.secret ≠ .ok text)
    (slotted : (∀ outcome, Stage.asked sealed (.answered (.ok current)) ≠ .ended outcome) →
      ring.Slotted key) :
    OnTrack key sealed text ring (.asked sealed (.answered (.ok current))) := by
  rw [Stage.asked] at slotted ⊢
  -- The split is on the secrets: another key with this secret would open the payload too.
  by_cases same : current.secret = key.secret
  · rw [same, opens]
    exact .ended
  · cases opened : openSealed sealed current.secret with
    | ok other => exact absurd opened (closed current (.inl isCurrent) same other)
    | error fault =>
        simp only [opened] at slotted
        refine .retrying ((slotted fun _ => nofun).resolve_left fun isKey => ?_)
        exact same (congrArg Key.secret (Option.some.inj (isCurrent.symm.trans isKey)))

theorem onTrack_asked {σ : Type} [KeyStore σ] {request : Request} {keeper after : Keeper σ}
    {before caller : Caller} (apart : request.Apart key)
    (advanced : request.Advanced keeper before caller after)
    (unanswered : ∀ outcome, before ≠ .answered outcome)
    (opens : openSealed sealed key.secret = .ok text)
    (closed : ∀ other, after.ring.Slotted other → other.secret ≠ key.secret →
      ∀ text, openSealed sealed other.secret ≠ .ok text)
    (slotted : (∀ outcome, Stage.asked sealed caller ≠ .ended outcome) → after.ring.Slotted key) :
    OnTrack key sealed text after.ring (.asked sealed caller) := by
  cases advanced with
  | stays => exact absurd rfl (unanswered _)
  | waits => exact .waiting
  | finds valid =>
      obtain ⟨isCurrent, -⟩ := Request.valid?_eq_some_iff.1 valid
      rw [apart.encryption] at isCurrent
      exact onTrack_answered isCurrent opens closed slotted
  | @rotates fresh _ _ rotated =>
      have isCurrent : after.ring.encryption.current = some fresh := by
        rw [rotated.ring, apart.encryption]
        rfl
      exact onTrack_answered isCurrent opens closed slotted

end OnTrack

namespace Scene

variable {σ : Type} [KeyStore σ] {n : Nat}

structure Steady (Ready : σ → Prop) (key : Key) (sealed text : Bytes) (origin : KeyRing)
    (scene : Scene σ n) : Prop where
  ready : Ready scene.race.keeper.store
  signing : scene.ring.signing = origin.signing
  onTrack : OnTrack key sealed text scene.ring scene.stage

def Always (requests : Fin n → Request) (call : Verification) (scene : Scene σ n)
    (schedule : List (Option (Fin n))) (property : Scene σ n → Prop) : Prop :=
  ∀ before rest, schedule = before ++ rest → property (scene.run requests call before)

theorem always_nil {requests : Fin n → Request} {call : Verification} {scene : Scene σ n}
    {property : Scene σ n → Prop} (now : property scene) :
    scene.Always requests call [] property := by
  intro before rest whole
  obtain ⟨rfl, -⟩ := List.append_eq_nil_iff.1 whole.symm
  exact now

theorem always_cons {requests : Fin n → Request} {call : Verification} {scene : Scene σ n}
    {property : Scene σ n → Prop} {who : Option (Fin n)} {schedule : List (Option (Fin n))}
    (now : property scene)
    (later : (scene.turn requests call who).Always requests call schedule property) :
    scene.Always requests call (who :: schedule) property := by
  intro before rest whole
  cases before with
  | nil => exact now
  | cons first before =>
      obtain ⟨rfl, same⟩ := List.cons.inj whole
      exact later before rest same

section Steady

variable {Ready : σ → Prop} {requests : Fin n → Request} {call : Verification} {key : Key}
  {sealed text : Bytes} {origin : KeyRing} {scene : Scene σ n}

theorem turn_steady (accepts : AcceptsWrites Ready) (others : ∀ i, (requests i).Apart key)
    (own : call.request.Apart key)
    (unwraps : unwrap origin call.token call.signingKey = .ok sealed)
    (opens : openSealed sealed key.secret = .ok text)
    (steady : Steady Ready key sealed text origin scene) (who : Option (Fin n))
    (slotted : (∀ outcome, (scene.turn requests call who).stage ≠ .ended outcome) →
      (scene.turn requests call who).ring.Slotted key)
    (closed : ∀ other, (scene.turn requests call who).ring.Slotted other →
      other.secret ≠ key.secret → ∀ text, openSealed sealed other.secret ≠ .ok text) :
    Steady Ready key sealed text origin (scene.turn requests call who) := by
  obtain ⟨ready, signing, onTrack⟩ := steady
  cases who with
  | some i =>
      have advanced := Request.advanced_of_accepts accepts ready (others i).able
        (scene.race.callers i)
      have spares := advanced.spares (others i)
      exact ⟨advanced.ready accepts (others i).able.given ready, spares.signing.trans signing,
        onTrack.spared spares slotted⟩
  | none =>
      have asking (caller : Caller) := Request.advanced_of_accepts accepts ready own.able
        caller
      obtain ⟨race, stage⟩ := scene
      cases onTrack with
      | called =>
          have opened : unwrap race.keeper.ring call.token call.signingKey = .ok sealed :=
            (unwrap_congr signing call.token call.signingKey).trans unwraps
          simp only [turn, Verification.advance, opened]
          exact ⟨ready, signing, .checking⟩
      | checking =>
          have advanced := asking .ready
          exact ⟨advanced.ready accepts own.able.given ready,
            (advanced.spares own).signing.trans signing,
            onTrack_asked own advanced (fun _ => nofun) opens closed slotted⟩
      | waiting =>
          have advanced := asking .waiting
          exact ⟨advanced.ready accepts own.able.given ready,
            (advanced.spares own).signing.trans signing,
            onTrack_asked own advanced (fun _ => nofun) opens closed slotted⟩
      | retrying previous =>
          have reopened (fault : CryptoError) :
              reopen sealed fault race.keeper.ring.encryption.previous = .ok text := by
            rw [show race.keeper.ring.encryption.previous = some key from previous, reopen, opens]
            rfl
          simp only [turn, Verification.advance, reopened]
          exact ⟨ready, signing, .ended⟩
      | ended => exact ⟨ready, signing, .ended⟩

theorem run_steady (accepts : AcceptsWrites Ready) (others : ∀ i, (requests i).Apart key)
    (own : call.request.Apart key)
    (unwraps : unwrap scene.ring call.token call.signingKey = .ok sealed)
    (opens : openSealed sealed key.secret = .ok text) (called : scene.stage = .called)
    (ready : Ready scene.race.keeper.store) {schedule : List (Option (Fin n))}
    (lasts : scene.Always requests call schedule fun moment =>
      (∀ outcome, moment.stage ≠ .ended outcome) → moment.ring.Slotted key)
    (closed : scene.Always requests call schedule fun moment => ∀ other, moment.ring.Slotted other →
      other.secret ≠ key.secret → ∀ text, openSealed sealed other.secret ≠ .ok text) :
    Steady Ready key sealed text scene.ring (scene.run requests call schedule) := by
  induction schedule using List.reverseRecOn with
  | nil =>
      refine ⟨ready, rfl, ?_⟩
      change OnTrack key sealed text scene.ring scene.stage
      rw [called]
      exact .called
  | append_singleton schedule who ih =>
      have goesOn {before rest : List (Option (Fin n))} (whole : schedule = before ++ rest) :
          schedule ++ [who] = before ++ (rest ++ [who]) := by rw [whole, List.append_assoc]
      have steady := ih (fun before rest whole => lasts before (rest ++ [who]) (goesOn whole))
        fun before rest whole => closed before (rest ++ [who]) (goesOn whole)
      have slotted := lasts _ [] (List.append_nil _).symm
      have apart := closed _ [] (List.append_nil _).symm
      rw [run_concat] at slotted apart ⊢
      exact turn_steady accepts others own unwraps opens steady who slotted apart

end Steady

/-- Let a token be verified whose payload was sealed under some key, while any number of callers, each
of them anywhere in its call, ask for the encryption key on a store that takes its writes. Let the key
be in a slot at every moment until the verification ends, and the payload open under no other secret of
the ring. In whatever order the sections come, the verification ends with the text that was sealed, and
does so within four turns. -/
theorem racing_verification_opens {Ready : σ → Prop} (accepts : AcceptsWrites Ready)
    {requests : Fin n → Request} {call : Verification} {key : Key}
    (others : ∀ i, (requests i).Apart key) (own : call.request.Apart key) {scene : Scene σ n}
    (called : scene.stage = .called) (ready : Ready scene.race.keeper.store)
    {sealed text : Bytes} {nonce : Drawn Nonce}
    (unwraps : unwrap scene.ring call.token call.signingKey = .ok sealed)
    (underKey : sealText text key.secret nonce = .ok sealed) (schedule : List (Option (Fin n)))
    (lasts : scene.Always requests call schedule fun moment =>
      (∀ outcome, moment.stage ≠ .ended outcome) → moment.ring.Slotted key)
    (closed : scene.Always requests call schedule fun moment => ∀ other, moment.ring.Slotted other →
      other.secret ≠ key.secret → ∀ text, openSealed sealed other.secret ≠ .ok text) :
    (∀ outcome, (scene.run requests call schedule).stage = .ended outcome → outcome = .ok text) ∧
      (4 ≤ schedule.count none → (scene.run requests call schedule).stage = .ended (.ok text)) := by
  have steady := run_steady accepts others own unwraps (openSealed_of_sealText underKey) called ready
    lasts closed
  have good (outcome : Except Error Bytes)
      (ended : (scene.run requests call schedule).stage = .ended outcome) : outcome = .ok text := by
    have onTrack := steady.onTrack
    rw [ended] at onTrack
    cases onTrack
    rfl
  refine ⟨good, fun turns => ?_⟩
  have left := left_run requests call called schedule
  have done : Verification.left (scene.run requests call schedule).stage = 0 := by omega
  obtain ⟨outcome, ended⟩ := Verification.ended_of_left done
  rw [ended, good outcome ended]

/-! ## A sample -/

def sampleHeld : Key := ⟨(sampleDraw 1).id, (sampleSecret 1).bytes, sampleDay 1⟩

def sampleSigner : Key := sampleKey 2 9

def sampleScene : Scene MemoryStore 1 :=
  ⟨.start (opened ⟨[sampleSigner], [sampleHeld], false, false⟩), .called⟩

def sampleRequests : Fin 1 → Request := fun _ => ⟨.encryption, sampleDay 1000, sampleDraw 3⟩

def sampleCall (token : String) : Verification := ⟨token, none, sampleDay 1000, sampleDraw 4⟩

def sampleSchedule : List (Option (Fin 1)) := [none, none, some 0, some 0, none, none]

def sampleFresh : Key :=
  (Key.mint (sampleDay 1000) (sampleDraw 3)).toOption.getD sampleHeld

theorem slots_sampleScene {token : String} {sealed : Bytes}
    (unwraps : unwrap sampleScene.ring token none = .ok sealed) :
    sampleScene.Always sampleRequests (sampleCall token) sampleSchedule fun moment =>
      moment.ring.encryption = ⟨some sampleHeld, none⟩ ∨
        moment.ring.encryption = ⟨some sampleFresh, some sampleHeld⟩ := by
  have opened : unwrap sampleScene.race.keeper.ring token none = .ok sealed := unwraps
  have first : sampleScene.turn sampleRequests (sampleCall token) none =
      { sampleScene with stage := .checking sealed } := by
    rw [turn, show sampleScene.stage = .called from rfl]
    simp only [Verification.advance, sampleCall, opened]
  refine always_cons (.inl rfl) ?_
  rw [first]
  refine always_cons (.inl rfl) (always_cons (.inl rfl) (always_cons (.inl rfl) ?_))
  refine always_cons (.inr rfl) (always_cons (.inr rfl) (always_nil (.inr ?_)))
  -- Whatever the fresh key opens, the last section changes no slot.
  have last (keeper : Keeper MemoryStore) : ((sampleCall token).advance keeper
      (.asked sealed (.answered (.ok sampleFresh)))).2.ring.encryption = keeper.ring.encryption := by
    rw [Verification.keeper_advance_asked]
  exact last _

theorem overtaken_verification_opens :
    ∃ sealed, sealText sampleText sampleHeld.secret (sampleDraw 1).nonce = .ok sealed ∧
      (sampleScene.run sampleRequests (sampleCall
        (signedToken (named .encrypted sampleSigner) sealed sampleSigner.secret))
          sampleSchedule).stage = .ended (.ok sampleText) := by
  obtain ⟨sealed, underKey⟩ : ∃ sealed, sealText sampleText sampleHeld.secret (sampleDraw 1).nonce =
      .ok sealed := exists_sealText (sampleSecret 1).length_eq (by decide) _
  have unwraps : unwrap sampleScene.ring
      (signedToken (named .encrypted sampleSigner) sealed sampleSigner.secret) none = .ok sealed :=
    unwrap_signedToken (by decide) (nonceLength_le_of_sealText underKey)
  refine ⟨sealed, underKey, ?_⟩
  generalize signedToken (named .encrypted sampleSigner) sealed sampleSigner.secret = token at unwraps ⊢
  have slots := slots_sampleScene unwraps
  have inTime : (sampleDay 1000).add? Key.lifetime ≠ none := by decide
  have apart (byte : UInt8) (differs : sampleHeld.id ≠ (sampleDraw byte).id) :
      Key.mint (sampleDay 1000) (sampleDraw byte) ≠ .ok sampleHeld :=
    fun again => differs (Key.of_mint again).1
  have others (i : Fin 1) : (sampleRequests i).Apart sampleHeld :=
    ⟨rfl, ⟨given_sampleDraw 3, inTime⟩, apart 3 (by decide)⟩
  have own : (sampleCall token).request.Apart sampleHeld :=
    ⟨rfl, ⟨given_sampleDraw 4, inTime⟩, apart 4 (by decide)⟩
  have lasts : sampleScene.Always sampleRequests (sampleCall token) sampleSchedule fun moment =>
      (∀ outcome, moment.stage ≠ .ended outcome) → moment.ring.Slotted sampleHeld := by
    intro before rest whole _
    rw [KeyRing.Slotted]
    rcases slots before rest whole with current | previous
    · exact .inl (congrArg (·.current) current)
    · exact .inr (congrArg (·.previous) previous)
  have closed : sampleScene.Always sampleRequests (sampleCall token) sampleSchedule fun moment =>
      ∀ other, moment.ring.Slotted other → other.secret ≠ sampleHeld.secret →
        ∀ text, openSealed sealed other.secret ≠ .ok text := by
    intro before rest whole other slotted differs
    rw [KeyRing.Slotted] at slotted
    rcases slots before rest whole with current | previous
    · rw [current] at slotted
      rcases slotted with isHeld | absent
      · obtain rfl := Option.some.inj isHeld
        exact absurd rfl differs
      · cases absent
    · rw [previous] at slotted
      rcases slotted with isFresh | isHeld
      · obtain rfl := Option.some.inj isFresh
        exact openSealed_sampleText underKey
      · obtain rfl := Option.some.inj isHeld
        exact absurd rfl differs
  obtain ⟨-, ends⟩ := racing_verification_opens MemoryStore.acceptsWrites others own rfl ⟨rfl, rfl⟩
    unwraps underKey sampleSchedule lasts closed
  exact ends (by decide)

end Scene

end Bearer
