import Bearer.Proofs.Key.Request

namespace Bearer

open KeyStore

/-! ## Stores that take their writes -/

/-- As long as it is ready, a store takes every write, and goes on to be ready. -/
structure AcceptsWrites {σ : Type} [KeyStore σ] (Ready : σ → Prop) : Prop where
  saves {store : σ} (ready : Ready store) (keyClass : KeyClass) {key : Key}
    (length : key.secret.length = keyLength) (nonce : Nonce) :
    ∃ after, perform (save keyClass key (.ok nonce)) store = (.ok (), after) ∧ Ready after
  removes {store : σ} (ready : Ready store) (gone : Uuid) :
    ∃ after, perform (removeEncryptionKey gone) store = (.ok (), after) ∧ Ready after

section AcceptsWrites

variable {σ : Type} [KeyStore σ] {Ready : σ → Prop} {store after : σ}
  {outcome : Except StoreError Unit}

theorem AcceptsWrites.saved (accepts : AcceptsWrites Ready) (ready : Ready store)
    {keyClass : KeyClass} {key : Key} (length : key.secret.length = keyLength) {nonce : Nonce}
    (done : perform (save keyClass key (.ok nonce)) store = (outcome, after)) :
    outcome = .ok () ∧ Ready after := by
  obtain ⟨other, saved, stillReady⟩ := accepts.saves ready keyClass length nonce
  obtain ⟨rfl, rfl⟩ := Prod.mk.inj (done.symm.trans saved)
  exact ⟨rfl, stillReady⟩

theorem AcceptsWrites.removed (accepts : AcceptsWrites Ready) (ready : Ready store) {gone : Uuid}
    (done : perform (removeEncryptionKey gone) store = (outcome, after)) :
    outcome = .ok () ∧ Ready after := by
  obtain ⟨other, removed, stillReady⟩ := accepts.removes ready gone
  obtain ⟨rfl, rfl⟩ := Prod.mk.inj (done.symm.trans removed)
  exact ⟨rfl, stillReady⟩

end AcceptsWrites

theorem MemoryStore.acceptsWrites : AcceptsWrites fun store : MemoryStore =>
    store.failWrites = false ∧ store.failSaves = false where
  saves {store} ready keyClass key length nonce := by
    have savable : store.checkSavable = .ok () := by
      simp [checkSavable, checkWritable, ready.1, ready.2]
    exact ⟨_, perform_checked savable, by cases keyClass <;> exact ready⟩
  removes {store} ready gone := by
    have writable : store.checkWritable = .ok () := by simp [checkWritable, ready.1]
    exact ⟨_, perform_checked writable, ready⟩

/-! ## Rotations that succeed -/

structure KeyDraw.Given (draw : KeyDraw) : Prop where
  secret : ∃ secret, draw.secret = .ok secret
  nonce : ∃ nonce, draw.nonce = .ok nonce

theorem given_sampleDraw (byte : UInt8) : (sampleDraw byte).Given := ⟨⟨_, rfl⟩, ⟨_, rfl⟩⟩

structure Request.Able (request : Request) : Prop where
  given : request.draw.Given
  representable : request.now.add? Key.lifetime ≠ none

theorem Request.Able.mints {request : Request} (able : request.Able) :
    ∃ key, Key.mint request.now request.draw = .ok key := by
  obtain ⟨secret, drawn⟩ := able.given.secret
  obtain ⟨expiry, added⟩ := Option.ne_none_iff_exists'.1 able.representable
  exact ⟨_, Key.mint_eq_ok_iff.2 ⟨secret, expiry, drawn, added, rfl⟩⟩

def KeyRing.evicted? (ring : KeyRing) : KeyClass → Option Key
  | .signing => none
  | .encryption => ring.encryption.previous

namespace Keeper

variable {σ : Type} [KeyStore σ]

/-- One key has been minted, saved and installed, and the one that had to go removed. -/
structure Rotated (request : Request) (key : Key) (keeper after : Keeper σ) : Prop where
  minted : Key.mint request.now request.draw = .ok key
  ring : after.ring = keeper.ring.install key request.keyClass
  store : ∃ cleared, Cleared keeper.store (keeper.ring.evicted? request.keyClass) cleared ∧
    perform (save request.keyClass key request.draw.nonce) cleared = (.ok (), after.store)
  trail : after.trail = keeper.trail ++
    (((keeper.ring.evicted? request.keyClass).map (AuditEvent.evicted .encryption ·.id)).toList ++
      [.minted request.keyClass key])

theorem Cleared.ready {Ready : σ → Prop} (accepts : AcceptsWrites Ready) {store cleared : σ}
    {previous : Option Key} (removed : Cleared store previous cleared) (ready : Ready store) :
    Ready cleared := by
  cases removed with
  | nothing => exact ready
  | removed done => exact (accepts.removed ready done).2

theorem Cleared.unique {store cleared other : σ} {previous : Option Key}
    (first : Cleared store previous cleared) (second : Cleared store previous other) :
    other = cleared := by
  cases first with
  | nothing =>
      cases second
      rfl
  | removed done =>
      cases second with
      | removed again => exact congrArg Prod.snd (again.symm.trans done)

theorem Rotated.ready {Ready : σ → Prop} (accepts : AcceptsWrites Ready) {request : Request}
    {key : Key} {keeper after : Keeper σ} (rotated : Rotated request key keeper after)
    (given : request.draw.Given) (ready : Ready keeper.store) : Ready after.store := by
  obtain ⟨cleared, removed, saved⟩ := rotated.store
  obtain ⟨nonce, drawn⟩ := given.nonce
  rw [drawn] at saved
  exact (accepts.saved (removed.ready accepts ready) (Key.length_of_mint rotated.minted) saved).2

end Keeper

namespace Request

open Keeper

variable {σ : Type} [KeyStore σ]

theorem rotated_of_rotate {request : Request} {keeper after : Keeper σ} {key : Key}
    (invalid : request.valid? keeper.ring = none)
    (done : perform request.rotate keeper = (.ok key, after)) : Rotated request key keeper after := by
  obtain ⟨keyClass, now, draw⟩ := request
  cases keyClass with
  | signing =>
      cases rotateSigningKey_step done with
      | valid current valid =>
          exact absurd (isValid_of_valid?_eq_none invalid current) (by rw [valid]; nofun)
      | minted minted saved => exact ⟨minted, rfl, ⟨_, .nothing, saved⟩, rfl⟩
  | encryption =>
      cases rotateEncryptionKey_step done with
      | valid current valid =>
          exact absurd (isValid_of_valid?_eq_none invalid current) (by rw [valid]; nofun)
      | minted minted _ removed saved => exact ⟨minted, rfl, ⟨_, removed, saved⟩, rfl⟩

theorem rotate_of_writes {request : Request} {keeper : Keeper σ}
    (invalid : request.valid? keeper.ring = none) {key : Key}
    (minted : Key.mint request.now request.draw = .ok key) {cleared store : σ}
    (removed : Cleared keeper.store (keeper.ring.evicted? request.keyClass) cleared)
    (saved : perform (save request.keyClass key request.draw.nonce) cleared = (.ok (), store)) :
    ∃ after, perform request.rotate keeper = (.ok key, after) ∧ Rotated request key keeper after := by
  obtain ⟨keyClass, now, draw⟩ := request
  rcases done : perform (rotate ⟨keyClass, now, draw⟩) keeper with ⟨outcome, after⟩
  suffices answered : outcome = .ok key by
    subst answered
    exact ⟨after, rfl, rotated_of_rotate invalid done⟩
  have drawn (reason : String) : draw.secret ≠ .error reason := fun refused =>
    absurd (minted.symm.trans (Key.mint_eq_random_iff.2 refused)) nofun
  have inTime : Key.mint now draw ≠ .error .calendarEnds := fun ends =>
    absurd (ends.symm.trans minted) nofun
  cases keyClass with
  | signing =>
      cases removed
      cases rotateSigningKey_step done with
      | valid current valid =>
          exact absurd (isValid_of_valid?_eq_none invalid current) (by rw [valid]; nofun)
      | undrawn refused => exact absurd refused (drawn _)
      | calendarEnds ends => exact absurd ends inTime
      | unsaved again failed =>
          obtain rfl := Except.ok.inj (minted.symm.trans again)
          exact absurd (saved.symm.trans failed) nofun
      | minted again saved => rw [Except.ok.inj (minted.symm.trans again)]
  | encryption =>
      cases rotateEncryptionKey_step done with
      | valid current valid =>
          exact absurd (isValid_of_valid?_eq_none invalid current) (by rw [valid]; nofun)
      | undrawn refused => exact absurd refused (drawn _)
      | calendarEnds ends => exact absurd ends inTime
      | unremoved _ slot failed =>
          change Cleared keeper.store keeper.ring.encryption.previous cleared at removed
          rw [slot] at removed
          cases removed with
          | removed gone => exact absurd (gone.symm.trans failed) nofun
      | unsaved again others failed =>
          obtain rfl := Except.ok.inj (minted.symm.trans again)
          obtain rfl := removed.unique others
          exact absurd (saved.symm.trans failed) nofun
      | minted again _ _ _ => rw [Except.ok.inj (minted.symm.trans again)]

theorem rotate_of_accepts {Ready : σ → Prop} (accepts : AcceptsWrites Ready) {request : Request}
    {keeper : Keeper σ} (ready : Ready keeper.store) (invalid : request.valid? keeper.ring = none)
    (able : request.Able) : ∃ key after,
      perform request.rotate keeper = (.ok key, after) ∧ Rotated request key keeper after := by
  obtain ⟨key, minted⟩ := able.mints
  obtain ⟨nonce, drawn⟩ := able.given.nonce
  obtain ⟨cleared, removed⟩ : ∃ cleared,
      Cleared keeper.store (keeper.ring.evicted? request.keyClass) cleared := by
    cases keeper.ring.evicted? request.keyClass with
    | none => exact ⟨_, .nothing⟩
    | some previous =>
        obtain ⟨cleared, done, -⟩ := accepts.removes ready previous.id
        exact ⟨cleared, .removed done⟩
  obtain ⟨store, saved, -⟩ := accepts.saves (removed.ready accepts ready) request.keyClass
    (Key.length_of_mint minted) nonce
  exact ⟨key, rotate_of_writes invalid minted removed (drawn ▸ saved)⟩

end Request

/-! ## Sections -/

inductive Caller where
  | ready
  | waiting
  | answered (outcome : Except Error Key)

namespace Request

open Keeper

variable {σ : Type} [KeyStore σ]

def advance (request : Request) (keeper : Keeper σ) : Caller → Caller × Keeper σ
  | .ready =>
      match request.valid? keeper.ring with
      | some key => (.answered (.ok key), keeper)
      | none => (.waiting, keeper)
  | .waiting =>
      let (outcome, keeper) := perform request.rotate keeper
      (.answered outcome, keeper)
  | .answered outcome => (.answered outcome, keeper)

theorem advance_advance (request : Request) (keeper : Keeper σ) :
    request.advance (request.advance keeper .ready).2 (request.advance keeper .ready).1 =
      (.answered (perform request.ask keeper).1, (perform request.ask keeper).2) := by
  cases found : request.valid? keeper.ring with
  | some key => simp only [advance, found, ask_of_valid found]
  | none => simp only [advance, found, ask_of_invalid found]

inductive Advanced (request : Request) (keeper : Keeper σ) : Caller → Caller → Keeper σ → Prop where
  | stays {outcome : Except Error Key} :
      Advanced request keeper (.answered outcome) (.answered outcome) keeper
  | waits (invalid : request.valid? keeper.ring = none) :
      Advanced request keeper .ready .waiting keeper
  | finds {caller : Caller} {key : Key} (valid : request.valid? keeper.ring = some key) :
      Advanced request keeper caller (.answered (.ok key)) keeper
  | rotates {key : Key} {after : Keeper σ} (invalid : request.valid? keeper.ring = none)
      (rotated : Rotated request key keeper after) :
      Advanced request keeper .waiting (.answered (.ok key)) after

theorem advanced_of_accepts {Ready : σ → Prop} (accepts : AcceptsWrites Ready) {request : Request}
    {keeper : Keeper σ} (ready : Ready keeper.store) (able : request.Able) (caller : Caller) :
    Advanced request keeper caller (request.advance keeper caller).1
      (request.advance keeper caller).2 := by
  cases caller with
  | ready =>
      cases found : request.valid? keeper.ring with
      | some key =>
          simp only [advance, found]
          exact .finds found
      | none =>
          simp only [advance, found]
          exact .waits found
  | waiting =>
      cases found : request.valid? keeper.ring with
      | some key =>
          simp only [advance, rotate_of_valid found]
          exact .finds found
      | none =>
          obtain ⟨key, after, done, rotated⟩ := rotate_of_accepts accepts ready found able
          simp only [advance, done]
          exact .rotates found rotated
  | answered outcome => exact .stays

theorem Advanced.ready {Ready : σ → Prop} (accepts : AcceptsWrites Ready) {request : Request}
    {keeper after : Keeper σ} {before caller : Caller}
    (advanced : request.Advanced keeper before caller after) (given : request.draw.Given)
    (ready : Ready keeper.store) : Ready after.store := by
  cases advanced with
  | rotates _ rotated => exact rotated.ready accepts given ready
  | _ => exact ready

end Request

def Caller.left : Caller → Nat
  | .ready => 2
  | .waiting => 1
  | .answered _ => 0

theorem Request.left_advance {σ : Type} [KeyStore σ] (request : Request) (keeper : Keeper σ)
    (caller : Caller) : (request.advance keeper caller).1.left ≤ caller.left - 1 := by
  cases caller with
  | ready =>
      cases found : request.valid? keeper.ring <;> simp [advance, found, Caller.left]
  | waiting => exact Nat.le_refl 0
  | answered outcome => exact Nat.le_refl 0

theorem Caller.answered_of_left {caller : Caller} (done : caller.left = 0) :
    ∃ outcome, caller = .answered outcome := by
  cases caller with
  | answered outcome => exact ⟨outcome, rfl⟩
  | _ => cases done

end Bearer
