import Bearer.Proofs.Key.Rotation
import Bearer.Proofs.Key.Store.Unreliable
import Bearer.Token.Service
import Mathlib.Logic.Relation

namespace Bearer

open KeyStore

/-! ## Initial stores -/

/-- A store that was blank, and has been written to since through its own operations only. -/
inductive Filled : Store → Prop where
  | memory (failWrites failSaves : Bool) : Filled (.memory ⟨[], [], failWrites, failSaves⟩)
  | files {store : FileStore}
      (blank : ∀ keyClass, ∃ names, store.disk.list (store.classDirectory keyClass) = .ok names ∧
        ∀ name ∈ names, FileSystem.extension? name ≠ some "json".toList) :
      Filled (.files store)
  | saved {store : Store} (filled : Filled store) (keyClass : KeyClass) (key : Key)
      (nonce : Drawn Nonce) : Filled (perform (save keyClass key nonce) store).2
  | removed {store : Store} (filled : Filled store) (gone : Uuid) :
      Filled (perform (removeEncryptionKey gone) store).2

theorem FileStore.sound_of_blank {store : FileStore}
    (blank : ∀ keyClass, ∃ names, store.disk.list (store.classDirectory keyClass) = .ok names ∧
      ∀ name ∈ names, FileSystem.extension? name ≠ some "json".toList) : store.Sound where
  directory keyClass := by
    obtain ⟨names, listed, -⟩ := blank keyClass
    exact (FileSystem.list_eq_ok_iff.1 listed).1
  records keyClass name node byName found := by
    obtain ⟨names, listed, foreign⟩ := blank keyClass
    obtain ⟨-, rfl⟩ := FileSystem.list_eq_ok_iff.1 listed
    exact absurd byName (foreign name (FileSystem.mem_namesIn.2 (by rw [found]; rfl)))

theorem Filled.sound {store : Store} (filled : Filled store) : LawfulKeyStore.Sound store := by
  induction filled with
  | memory failWrites failSaves => exact ⟨KeyTable.distinct_nil, KeyTable.distinct_nil⟩
  | files blank => exact FileStore.sound_of_blank blank
  | @saved store filled keyClass key nonce ih =>
      cases done : perform (save keyClass key nonce) store with
      | mk outcome after =>
          cases outcome with
          | ok _ => exact (LawfulKeyStore.saved ih done).1
          | error fault => exact (LawfulKeyStore.unsaved ih done).1
  | @removed store filled gone ih =>
      cases done : perform (removeEncryptionKey gone) store with
      | mk outcome after =>
          cases outcome with
          | ok _ => exact (LawfulKeyStore.removed ih done).1
          | error fault => exact (LawfulKeyStore.unremoved ih done).1

/-! ## Worlds -/

inductive Action where
  | setClock (t : Instant)
  | signPlain (claims : Claims) (signingKey : Option Bytes) (entropy : Entropy)
  | signEncrypted (claims : Claims) (encryptionKey signingKey : Option Bytes) (entropy : Entropy)
  | verifyPlain (token : String) (signingKey : Option Bytes)
  | verifyEncrypted (token : String) (encryptionKey signingKey : Option Bytes) (entropy : Entropy)
  | currentSigningKey (draw : KeyDraw)
  | currentEncryptionKey (draw : KeyDraw)
  | breakWrites (breaks : List (Option (Break × StoreError)))
  | reload

structure World where
  clock : Instant
  keeper : Keeper (Unreliable Store)

def Keeper.reload {σ : Type} [KeyStore σ] (keeper : Keeper σ) : Keeper σ :=
  match Keeper.load keeper.store with
  | (.ok ring, events) => ⟨ring, keeper.store, keeper.trail ++ events⟩
  | (.error _, events) => { keeper with trail := keeper.trail ++ events }

theorem Keeper.trail_reload {σ : Type} [KeyStore σ] (keeper : Keeper σ) :
    ∃ events, keeper.reload.trail = keeper.trail ++ events := by
  unfold reload
  split <;> exact ⟨_, rfl⟩

namespace World

def start (store : Store) (clock : Instant) : World :=
  ⟨clock, Keeper.reload ⟨KeyRing.empty, ⟨store, []⟩, []⟩⟩

def call {α : Type} (world : World) (action : KeeperM (Unreliable Store) α) : World :=
  { world with keeper := (perform action world.keeper).2 }

def step (service : TokenService) (world : World) : Action → World
  | .setClock t => { world with clock := t }
  | .signPlain claims signingKey entropy =>
      world.call (service.signPlain claims signingKey world.clock entropy)
  | .signEncrypted claims encryptionKey signingKey entropy =>
      world.call (service.signEncrypted claims encryptionKey signingKey world.clock entropy)
  | .verifyPlain token signingKey =>
      world.call (do service.verifyPlain (← get).ring token signingKey world.clock)
  | .verifyEncrypted token encryptionKey signingKey entropy =>
      world.call (service.verifyEncrypted token encryptionKey signingKey world.clock entropy)
  | .currentSigningKey draw => world.call (Keeper.currentSigningKey world.clock draw)
  | .currentEncryptionKey draw => world.call (Keeper.currentEncryptionKey world.clock draw)
  | .breakWrites breaks =>
      { world with keeper := { world.keeper with store := { world.keeper.store with breaks } } }
  | .reload => { world with keeper := world.keeper.reload }

def run (service : TokenService) (world : World) (actions : List Action) : World :=
  actions.foldl (step service) world

@[simp] theorem run_nil (service : TokenService) (world : World) : world.run service [] = world := rfl

@[simp] theorem run_cons (service : TokenService) (world : World) (action : Action)
    (actions : List Action) :
    world.run service (action :: actions) = (world.step service action).run service actions := rfl

theorem keeper_signEncrypted (service : TokenService) (world : World) (claims : Claims)
    (encryptionKey signingKey : Option Bytes) (entropy : Entropy) :
    (world.step service (.signEncrypted claims encryptionKey signingKey entropy)).keeper =
      (perform (service.signEncrypted claims encryptionKey signingKey world.clock entropy)
        world.keeper).2 := rfl

theorem keeper_verifyEncrypted (service : TokenService) (world : World) (token : String)
    (encryptionKey signingKey : Option Bytes) (entropy : Entropy) :
    (world.step service (.verifyEncrypted token encryptionKey signingKey entropy)).keeper =
      (perform (service.verifyEncrypted token encryptionKey signingKey world.clock entropy)
        world.keeper).2 := rfl

theorem run_append (service : TokenService) (world : World) (first second : List Action) :
    world.run service (first ++ second) = (world.run service first).run service second :=
  List.foldl_append

end World

/-! ## Sample randomness -/

def sampleSecret (byte : UInt8) : Secret := ⟨List.replicate keyLength byte, by simp⟩

def sampleNonce (byte : UInt8) : Nonce := ⟨List.replicate Gcm.nonceLength byte, by simp⟩

def sampleDraw (byte : UInt8) : KeyDraw where
  id := .ofRandom (List.replicate 16 byte) (by simp)
  secret := .ok (sampleSecret byte)
  nonce := .ok (sampleNonce byte)
  id_not_nil := Uuid.isNil_ofRandom _ _

def sampleEntropy (byte : UInt8) : Entropy :=
  ⟨sampleDraw byte, sampleDraw (byte + 1), .ok (sampleNonce byte)⟩

def sampleYear (year : Fin 100) : Instant :=
  ⟨31536000 * year.val, 0, by omega, by omega, .inl (by decide)⟩

def sampleDay (day : UInt16) : Instant :=
  ⟨86400 * day.toNat, 0, by omega, by have := day.toNat_lt; omega, .inl (by decide)⟩

def sampleKey (byte : UInt8) (day : UInt16) : Key :=
  ⟨(sampleDraw byte).id, [byte], sampleDay day⟩

/-! ## Moves -/

namespace Keeper

section Moves

variable {σ : Type} [KeyStore σ]

inductive Move (keeper after : Keeper σ) : Prop where
  | signing {now : Instant} {draw : KeyDraw} {outcome : Except Error Key}
      (step : SigningStep keeper now draw outcome after)
  | encryption {now : Instant} {draw : KeyDraw} {outcome : Except Error Key}
      (step : EncryptionStep keeper now draw outcome after)

abbrev Moves : Keeper σ → Keeper σ → Prop := Relation.ReflTransGen Move

theorem moves_currentSigningKey (keeper : Keeper σ) (now : Instant) (draw : KeyDraw) :
    Moves keeper (perform (currentSigningKey now draw) keeper).2 :=
  .single (.signing (currentSigningKey_step rfl))

theorem moves_currentEncryptionKey (keeper : Keeper σ) (now : Instant) (draw : KeyDraw) :
    Moves keeper (perform (currentEncryptionKey now draw) keeper).2 :=
  .single (.encryption (currentEncryptionKey_step rfl))

theorem moves_bind {α β : Type} {first : KeeperM σ α} {next : α → KeeperM σ β} {keeper : Keeper σ}
    (begins : Moves keeper (perform first keeper).2)
    (goesOn : ∀ value after, Moves after (perform (next value) after).2) :
    Moves keeper (perform (first >>= next) keeper).2 := by
  rw [perform_bind]
  rcases done : perform first keeper with ⟨fault | value, after⟩
  · rw [done] at begins
    exact begins
  · rw [done] at begins
    exact begins.trans (goesOn value after)

theorem moves_lift {α : Type} (outcome : Except Error α) (keeper : Keeper σ) :
    Moves keeper (perform (liftM outcome : KeeperM σ α) keeper).2 := by
  rw [perform_lift]

end Moves

end Keeper

namespace TokenService

open Keeper

variable {σ : Type} [KeyStore σ]

theorem moves_sealEnvelope (header : Header) (payload : Bytes) (signingKey : Option Bytes)
    (now : Instant) (draw : KeyDraw) (keeper : Keeper σ) :
    Moves keeper (perform (sealEnvelope header payload signingKey now draw) keeper).2 := by
  unfold sealEnvelope
  cases explicit signingKey with
  | some secret => exact .refl
  | none => exact moves_bind (moves_currentSigningKey keeper now draw) fun _ _ => .refl

theorem moves_signEncrypted (service : TokenService) (claims : Claims)
    (encryptionKey signingKey : Option Bytes) (now : Instant) (entropy : Entropy)
    (keeper : Keeper σ) : Moves keeper
      (perform (service.signEncrypted claims encryptionKey signingKey now entropy) keeper).2 := by
  have rest (secret : Bytes) (after : Keeper σ) : Moves after (perform (do
      let sealed ← (sealText (encodeClaims (service.stamp claims now)) secret
        entropy.payload).mapError sealError
      sealEnvelope .encrypted sealed signingKey now entropy.signingKey : KeeperM σ String) after).2 :=
    moves_bind (moves_lift _ after) fun sealed after =>
      moves_sealEnvelope .encrypted sealed signingKey now entropy.signingKey after
  unfold signEncrypted
  cases explicit encryptionKey with
  | some secret => exact rest secret keeper
  | none =>
      refine moves_bind ?_ rest
      exact moves_bind (moves_currentEncryptionKey keeper now entropy.encryptionKey)
        fun _ _ => .refl

theorem moves_openWithRing (sealed : Bytes) (now : Instant) (draw : KeyDraw) (keeper : Keeper σ) :
    Moves keeper (perform (openWithRing sealed now draw) keeper).2 := by
  refine moves_bind (moves_currentEncryptionKey keeper now draw) fun current after => ?_
  rw [perform_get_bind]
  exact moves_lift _ after

theorem moves_verifyEncrypted (service : TokenService) (token : String)
    (encryptionKey signingKey : Option Bytes) (now : Instant) (entropy : Entropy)
    (keeper : Keeper σ) : Moves keeper
      (perform (service.verifyEncrypted token encryptionKey signingKey now entropy) keeper).2 := by
  unfold verifyEncrypted
  rw [perform_get_bind]
  refine moves_bind (moves_lift _ keeper) fun pair after => ?_
  refine moves_bind (moves_lift _ after) fun sealed after => ?_
  cases explicit encryptionKey with
  | some secret => exact moves_bind (moves_lift _ after) fun _ after => moves_lift _ after
  | none =>
      exact moves_bind (moves_openWithRing sealed now entropy.encryptionKey after)
        fun _ after => moves_lift _ after

end TokenService

namespace World

open Keeper TokenService

inductive Effect (world after : World) : Prop where
  | moves (moves : Moves world.keeper after.keeper)
  | disturbed (breaks : List (Option (Break × StoreError)))
      (same : after.keeper =
        { world.keeper with store := { world.keeper.store with breaks } })

theorem effect_of_step (service : TokenService) (world : World) {action : Action}
    (stays : action ≠ .reload) : Effect world (world.step service action) := by
  cases action with
  | setClock t => exact .moves .refl
  | signPlain claims signingKey entropy =>
      exact .moves (moves_sealEnvelope _ _ signingKey _ entropy.signingKey _)
  | signEncrypted claims encryptionKey signingKey entropy =>
      exact .moves (moves_signEncrypted service claims encryptionKey signingKey _ entropy _)
  | verifyPlain token signingKey =>
      exact .moves (moves_bind .refl fun _ after => moves_lift _ after)
  | verifyEncrypted token encryptionKey signingKey entropy =>
      exact .moves (moves_verifyEncrypted service token encryptionKey signingKey _ entropy _)
  | currentSigningKey draw => exact .moves (moves_currentSigningKey _ _ draw)
  | currentEncryptionKey draw => exact .moves (moves_currentEncryptionKey _ _ draw)
  | breakWrites breaks => exact .disturbed breaks rfl
  | reload => exact absurd rfl stays

end World

end Bearer
