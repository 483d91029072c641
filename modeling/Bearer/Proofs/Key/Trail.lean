import Bearer.Proofs.Key.Change
import Mathlib.Data.Finset.Basic
import Mathlib.Data.Finset.Dedup
/-!
# The trail and the store

* `replay`: what is left of some identifiers once the mints and the evictions of a trail are carried
  out on them.
* `Tells`: the events of a call account for what it did to the store, each change by one event.
* `trail_tells_store`: of signing keys the trail tells all. Of encryption keys it does so but for a
  rotation that is half done, which it mends late, or never if the ring is loaded anew meanwhile.
-/

namespace Bearer

open KeyStore KeyRing

namespace KeyStore

variable {σ : Type} [KeyStore σ]

def ids (store : σ) (keyClass : KeyClass) : Finset Uuid :=
  ((table store keyClass).map Key.id).toFinset

theorem mem_ids {store : σ} {keyClass : KeyClass} {id : Uuid} :
    id ∈ ids store keyClass ↔ held store keyClass id ≠ none := by
  simp [ids, held, KeyTable.find?]

theorem ids_congr {τ : Type} [KeyStore τ] {store : σ} {other : τ} {keyClass : KeyClass}
    (same : ∀ id, held other keyClass id = held store keyClass id) :
    ids other keyClass = ids store keyClass := by
  ext id
  rw [mem_ids, mem_ids, same]

end KeyStore

/-! ## Replaying a trail -/

namespace AuditEvent

def carryOut (keyClass : KeyClass) (ids : Finset Uuid) : AuditEvent → Finset Uuid
  | .minted other key => if other = keyClass then insert key.id ids else ids
  | .evicted other id => if other = keyClass then ids.erase id else ids
  | .loaded _ _ | .rotationFailed _ _ => ids

end AuditEvent

open AuditEvent

def replay (keyClass : KeyClass) (ids : Finset Uuid) (trail : List AuditEvent) : Finset Uuid :=
  trail.foldl (carryOut keyClass) ids

theorem replay_append (keyClass : KeyClass) (ids : Finset Uuid) (first second : List AuditEvent) :
    replay keyClass ids (first ++ second) = replay keyClass (replay keyClass ids first) second :=
  List.foldl_append

theorem Quiet.replay {keyClass : KeyClass} {events : List AuditEvent} (quiet : Quiet keyClass events)
    (ids : Finset Uuid) : replay keyClass ids events = ids := by
  induction events generalizing ids with
  | nil => rfl
  | cons event events ih =>
      have still : carryOut keyClass ids event = ids := by
        have silent := quiet event List.mem_cons_self
        cases event with
        | loaded => rfl
        | minted other key =>
            have foreign := (silent key.id).1
            simp only [AuditEvent.mints, decide_true, Bool.and_true, decide_eq_false_iff_not]
              at foreign
            exact if_neg foreign
        | evicted other id =>
            have foreign := (silent id).2
            simp only [AuditEvent.evicts, decide_true, Bool.and_true, decide_eq_false_iff_not]
              at foreign
            exact if_neg foreign
        | rotationFailed => rfl
      rw [Bearer.replay, List.foldl_cons, still]
      exact ih (fun other inside => quiet other (List.mem_cons_of_mem _ inside)) ids

/-! ## Accounts of a call -/

/-- The events tell of each identifier that has come or gone, once, and of no other. -/
structure Told (keyClass : KeyClass) (before after : Finset Uuid) (events : List AuditEvent) :
    Prop where
  minted : ∀ id, events.countP (AuditEvent.mints keyClass id) =
    if id ∈ after ∧ id ∉ before then 1 else 0
  evicted : ∀ id, events.countP (AuditEvent.evicts keyClass id) =
    if id ∈ before ∧ id ∉ after then 1 else 0

theorem Quiet.told_iff {keyClass : KeyClass} {before after : Finset Uuid} {events : List AuditEvent}
    (quiet : Quiet keyClass events) : Told keyClass before after events ↔ after = before := by
  have noMint (id : Uuid) : events.countP (AuditEvent.mints keyClass id) = 0 := by
    rw [List.countP_eq_zero]
    intro event inside
    simp [(quiet event inside id).1]
  have noEviction (id : Uuid) : events.countP (AuditEvent.evicts keyClass id) = 0 := by
    rw [List.countP_eq_zero]
    intro event inside
    simp [(quiet event inside id).2]
  constructor
  · intro told
    ext id
    have came := told.minted id
    have went := told.evicted id
    rw [noMint] at came
    rw [noEviction] at went
    by_cases there : id ∈ before
    · simpa [there] using went
    · simpa [there] using came
  · rintro rfl
    constructor
    · intro id
      simp [noMint]
    · intro id
      simp [noEviction]

theorem replay_rotationEvents (ids : Finset Uuid) (previous : Option Key) (key : Key) (id : Uuid) :
    id ∈ replay .encryption ids (Keeper.rotationEvents previous key) ↔
      id = key.id ∨ previous.map Key.id ≠ some id ∧ id ∈ ids := by
  cases previous with
  | none => simp [replay, Keeper.rotationEvents, carryOut]
  | some previous => simp [replay, Keeper.rotationEvents, carryOut, eq_comm]

theorem told_rotationEvents {before after : Finset Uuid} {previous : Option Key} {key : Key}
    (foreign : key.id ∉ before) (apart : previous.map Key.id ≠ some key.id)
    (holds : ∀ id, id ∈ after ↔ id = key.id ∨ previous.map Key.id ≠ some id ∧ id ∈ before) :
    Told .encryption before after (Keeper.rotationEvents previous key) ↔
      ∀ old, previous = some old → old.id ∈ before := by
  have minted (id : Uuid) : (Keeper.rotationEvents previous key).countP (mints .encryption id) =
      if id ∈ after ∧ id ∉ before then 1 else 0 := by
    by_cases isKey : id = key.id
    · subst isKey
      have came : key.id ∈ after := (holds key.id).2 (.inl rfl)
      rw [if_pos ⟨came, foreign⟩]
      cases previous <;> simp [Keeper.rotationEvents, mints]
    · have still : ¬(id ∈ after ∧ id ∉ before) := by
        rw [holds]
        simp [isKey]
      rw [if_neg still]
      cases previous <;> simp [Keeper.rotationEvents, mints, Ne.symm isKey]
  -- The eviction is told whenever there is a previous key: truly, if the store had that key.
  constructor
  · rintro told old rfl
    have went := told.evicted old.id
    by_contra absent
    simp [Keeper.rotationEvents, evicts, absent] at went
  · intro there
    refine ⟨minted, fun id => ?_⟩
    cases previous with
    | none =>
        have still : ¬(id ∈ before ∧ id ∉ after) := by
          rintro ⟨there, gone⟩
          exact gone ((holds id).2 (.inr ⟨by simp, there⟩))
        rw [if_neg still]
        simp [Keeper.rotationEvents, evicts]
    | some old =>
        by_cases isOld : id = old.id
        · subst isOld
          have gone : old.id ∉ after := by
            rw [holds]
            simpa using apart
          rw [if_pos ⟨there old rfl, gone⟩]
          simp [Keeper.rotationEvents, evicts]
        · have still : ¬(id ∈ before ∧ id ∉ after) := by
            rintro ⟨there, gone⟩
            exact gone ((holds id).2 (.inr ⟨by simpa using Ne.symm isOld, there⟩))
          rw [if_neg still]
          simp [Keeper.rotationEvents, evicts, Ne.symm isOld]

namespace Keeper

variable {σ : Type} [KeyStore σ]

def Tells (keyClass : KeyClass) (keeper after : Keeper σ) : Prop :=
  ∃ events, after.trail = keeper.trail ++ events ∧
    Told keyClass (ids keeper.store keyClass) (ids after.store keyClass) events

theorem tells_iff {keyClass : KeyClass} {keeper after : Keeper σ} {events : List AuditEvent}
    (trail : after.trail = keeper.trail ++ events) : Tells keyClass keeper after ↔
      Told keyClass (ids keeper.store keyClass) (ids after.store keyClass) events := by
  constructor
  · rintro ⟨others, isOther, told⟩
    rwa [List.append_cancel_left (isOther.symm.trans trail)] at told
  · intro told
    exact ⟨events, trail, told⟩

variable [LawfulKeyStore σ]

/-- The ring was loaded anew while a rotation was half done that had removed this key. -/
def LeftBehind (loaded : Keeper σ) (operations : List Operation) (previous : Key) : Prop :=
  ∃ before rest, operations = before ++ .reload :: rest ∧ HalfDone loaded before previous

omit [LawfulKeyStore σ] in
theorem leftBehind_concat_iff {loaded : Keeper σ} {operations : List Operation}
    {operation : Operation} {previous : Key} :
    LeftBehind loaded (operations ++ [operation]) previous ↔
      LeftBehind loaded operations previous ∨
        operation = .reload ∧ HalfDone loaded operations previous := by
  constructor
  · rintro ⟨before, rest, whole, halfDone⟩
    rcases cut_of_concat whole with ⟨rfl, isLast, -⟩ | ⟨rest, -, rfl⟩
    · exact .inr ⟨isLast.symm, halfDone⟩
    · exact .inl ⟨before, rest, rfl, halfDone⟩
  · rintro (⟨before, rest, rfl, halfDone⟩ | ⟨rfl, halfDone⟩)
    · exact ⟨before, rest ++ [operation], by simp, halfDone⟩
    · exact ⟨operations, [], rfl, halfDone⟩

/-! ## Calls -/

section Calls

variable {origin : Store} {loaded : Keeper σ} {keys : KeyTable} {operations : List Operation}
  {request : Request} {events : List AuditEvent} {key : Key}

theorem Stock.mem_ids_or {keeper : Keeper σ} {lost : Key → Prop}
    (stock : Stock origin keeper keys lost) {previous : Key}
    (slot : keeper.ring.encryption.previous = some previous) :
    previous.id ∈ ids keeper.store .encryption ∨ lost previous := by
  rcases stock.held_previous (stock.previous.symm.trans slot) with stored | ⟨-, isLost⟩
  · left
    rw [mem_ids, stored]
    exact Option.some_ne_none previous
  · exact .inr isLost

theorem Removes.told_iff (removes : Removes (loaded.run operations)
      (loaded.run (operations ++ [.ask request])) (perform request.ask (loaded.run operations)).1
      events)
    (coherent : loaded.Coherent)
    (stock : Stock origin (loaded.run operations) keys (HalfDone loaded operations)) :
    Told .encryption (ids (loaded.run operations).store .encryption)
        (ids (loaded.run (operations ++ [.ask request])).store .encryption) events ↔
      ∀ previous, HalfDone loaded operations previous ↔
        HalfDone loaded (operations ++ [.ask request]) previous := by
  simp only [removes.quiet.told_iff, removes.halfDone_iff coherent stock]
  constructor
  · intro same previous
    constructor
    · intro halfDone
      exact (halfDone.absent coherent).1
    · intro slot
      rcases stock.mem_ids_or slot with there | before
      · rw [← same, mem_ids, removes.holds, slot] at there
        exact absurd (if_pos rfl) there
      · exact before
  · intro same
    ext id
    rw [mem_ids, mem_ids, removes.holds]
    split
    · next isPrevious =>
        obtain ⟨previous, slot, rfl⟩ := Option.map_eq_some_iff.1 isPrevious
        rw [(((same previous).2 slot).absent coherent).2]
    · rfl

theorem Rotates.told_iff (rotates : Rotates key (loaded.run operations)
      (loaded.run (operations ++ [.ask request])) (perform request.ask (loaded.run operations)).1
      events)
    (coherent : loaded.Coherent)
    (stock : Stock origin (loaded.run operations) keys (HalfDone loaded operations))
    (foreign : ¬Taken origin (loaded.run operations).trail key.id)
    (absent : key.id ∉ ids (loaded.run operations).store .encryption) :
    Told .encryption (ids (loaded.run operations).store .encryption)
        (ids (loaded.run (operations ++ [.ask request])).store .encryption) events ↔
      ∀ previous, HalfDone loaded operations previous ↔
        HalfDone loaded (operations ++ [.ask request]) previous := by
  have apart : (loaded.run operations).ring.encryption.previous.map Key.id ≠ some key.id := by
    intro isPrevious
    obtain ⟨old, slot, isId⟩ := Option.map_eq_some_iff.1 isPrevious
    apply foreign
    rw [← isId]
    exact stock.taken old (List.mem_of_getElem? (stock.previous.symm.trans slot))
  -- Nothing is half done after the rotation, so the point is that nothing was before it.
  rw [rotates.told, told_rotationEvents absent apart ?_]
  · constructor
    · intro there previous
      refine iff_of_false ?_ rotates.not_halfDone
      intro halfDone
      obtain ⟨slot, gone⟩ := halfDone.absent coherent
      exact mem_ids.1 (there previous slot) gone
    · intro same old slot
      rcases stock.mem_ids_or slot with there | before
      · exact there
      · exact absurd ((same old).1 before) rotates.not_halfDone
  · intro id
    rw [mem_ids, mem_ids, rotates.holds]
    by_cases isKey : id = key.id
    · simp [isKey]
    · rw [if_neg isKey]
      split
      · next isPrevious =>
          rw [isPrevious]
          simp [isKey]
      · next other => simp only [isKey, other, ne_eq, not_false_eq_true, true_and, false_or]

end Calls

/-! ## Runs -/

section Runs

variable {origin : Store} {loaded : Keeper σ}

theorem LoadedFrom.tells_signing (start : LoadedFrom origin loaded) {operations : List Operation}
    {operation : Operation} (fresh : FreshIds origin (loaded.run (operations ++ [operation])).trail) :
    Tells .signing (loaded.run operations) (loaded.run (operations ++ [operation])) := by
  have sound := start.sound_run operations
  rw [run_concat] at fresh ⊢
  cases operation with
  | reload =>
      rw [operate, reload_of_sound sound]
      exact ⟨_, rfl, (quiet_loadedEvents _ _).told_iff.2 rfl⟩
  | ask request =>
      obtain ⟨events, trail, change, -⟩ := change_of_ask sound request
      refine ⟨events, trail, ?_⟩
      cases change with
      | none quiet same => exact quiet.told_iff.2 (ids_congr same)
      | @saved key told holds =>
          have minted : key.id ∈ mintedIds events := by
            rw [told]
            exact List.mem_singleton_self _
          have foreign : held (loaded.run operations).store .signing key.id = none := by
            by_contra there
            rw [trail] at fresh
            exact fresh.not_taken minted (start.taken (FreshIds.of_append fresh) there)
          subst told
          constructor
          · intro id
            by_cases isKey : id = key.id
            · simp [mem_ids, holds, isKey, foreign, mints]
            · simp [mem_ids, holds, isKey, Ne.symm isKey, mints]
          · intro id
            by_cases isKey : id = key.id
            · simp [mem_ids, holds, isKey, evicts]
            · simp [mem_ids, holds, isKey, evicts]

theorem LoadedFrom.tells_encryption_iff (start : LoadedFrom origin loaded)
    {operations : List Operation} {operation : Operation}
    (fresh : FreshIds origin (loaded.run (operations ++ [operation])).trail) :
    Tells .encryption (loaded.run operations) (loaded.run (operations ++ [operation])) ↔
      operation = .reload ∨ ∀ previous, HalfDone loaded operations previous ↔
        HalfDone loaded (operations ++ [operation]) previous := by
  have sound := start.sound_run operations
  obtain ⟨keys, stock⟩ := start.stock_run (fresh_run fresh)
  have next := run_concat loaded operations operation
  cases operation with
  | reload =>
      rw [next, operate, reload_of_sound sound]
      simp only [true_or, iff_true]
      exact ⟨_, rfl, (quiet_loadedEvents _ _).told_iff.2 rfl⟩
  | ask request =>
      obtain ⟨events, trail, -, change⟩ := change_of_ask sound request
      rw [← next] at trail change
      rw [tells_iff trail]
      simp only [reduceCtorEq, false_or]
      cases change with
      | none spares =>
          refine iff_of_true (spares.quiet.told_iff.2 (ids_congr spares.same)) fun previous => ?_
          exact spares.halfDone_iff.symm
      | removed _ removes => exact removes.told_iff start.coherent stock
      | @rotated key _ rotates =>
          have isMinted : key.id ∈ mintedIds events := by
            rw [rotates.told, mintedIds_rotationEvents]
            exact List.mem_singleton_self _
          have foreign := FreshIds.not_taken (trail ▸ fresh) isMinted
          refine rotates.told_iff start.coherent stock foreign fun there => ?_
          exact foreign (start.taken (fresh_run fresh) (mem_ids.1 there))

structure Account (origin : Store) (loaded : Keeper σ) (operations : List Operation) : Prop where
  signing : replay .signing (ids origin .signing) (loaded.run operations).trail =
    ids (loaded.run operations).store .signing
  encryption : ∀ id, id ∈ replay .encryption (ids origin .encryption) (loaded.run operations).trail ↔
    id ∈ ids (loaded.run operations).store .encryption ∨ ∃ previous, previous.id = id ∧
      (HalfDone loaded operations previous ∨ LeftBehind loaded operations previous)
  left : ∀ previous, LeftBehind loaded operations previous →
    Taken origin (loaded.run operations).trail previous.id ∧
      (loaded.run operations).Forgotten previous

omit [LawfulKeyStore σ] in
theorem SigningChange.replayed {keeper after : Keeper σ} {events : List AuditEvent}
    (change : SigningChange keeper after events) :
    replay .signing (ids keeper.store .signing) events = ids after.store .signing := by
  cases change with
  | none quiet same => rw [quiet.replay, ids_congr same]
  | @saved key told holds =>
      have replayed : Bearer.replay .signing (ids keeper.store .signing) [.minted .signing key] =
          insert key.id (ids keeper.store .signing) := by simp [Bearer.replay, carryOut]
      rw [told, replayed]
      ext id
      rw [Finset.mem_insert, mem_ids, mem_ids, holds]
      by_cases isKey : id = key.id
      · simp [isKey]
      · simp [isKey]

theorem account_nil (start : LoadedFrom origin loaded) : Account origin loaded [] where
  signing := by rw [run_nil, (start.quiet .signing).replay, ids_congr (start.same .signing)]
  encryption id := by
    rw [run_nil, (start.quiet .encryption).replay, ids_congr (start.same .encryption)]
    constructor
    · exact .inl
    · rintro (there | ⟨previous, -, ⟨before, request, rest, whole, -⟩ | ⟨before, rest, whole, -⟩⟩)
      · exact there
      · simp at whole
      · simp at whole
  left := by
    rintro previous ⟨before, rest, whole, -⟩
    simp at whole

theorem Account.reload {operations : List Operation} (account : Account origin loaded operations)
    (start : LoadedFrom origin loaded) (fresh : FreshIds origin (loaded.run operations).trail) :
    Account origin loaded (operations ++ [.reload]) := by
  have sound := start.sound_run operations
  have next : loaded.run (operations ++ [.reload]) = (loaded.run operations).reload :=
    run_concat loaded operations .reload
  obtain ⟨events, trail, quiet⟩ : ∃ events, (loaded.run operations).reload.trail =
      (loaded.run operations).trail ++ events ∧ ∀ keyClass, Quiet keyClass events := by
    rw [reload_of_sound sound]
    exact ⟨_, rfl, fun keyClass => quiet_loadedEvents keyClass _⟩
  constructor
  · rw [next, trail, store_reload sound, replay_append, (quiet .signing).replay, account.signing]
  · intro id
    rw [next, trail, store_reload sound, replay_append, (quiet .encryption).replay,
      account.encryption]
    simp only [not_halfDone_reload, leftBehind_concat_iff, true_and, false_or]
    simp only [or_comm]
  · intro previous isLeft
    rw [next, trail]
    rcases leftBehind_concat_iff.1 isLeft with before | ⟨-, halfDone⟩
    · obtain ⟨taken, forgotten⟩ := account.left previous before
      exact ⟨taken.append events, forgotten_reload sound forgotten.store⟩
    · obtain ⟨slot, gone⟩ := halfDone.absent start.coherent
      obtain ⟨keys, stock⟩ := start.stock_run fresh
      have inside := List.mem_of_getElem? (stock.previous.symm.trans slot)
      exact ⟨(stock.taken previous inside).append events, forgotten_reload sound gone⟩

section Calls

variable {keys : KeyTable} {operations : List Operation} {request : Request}
  {events : List AuditEvent} {key : Key}

theorem Removes.replayed (removes : Removes (loaded.run operations)
      (loaded.run (operations ++ [.ask request])) (perform request.ask (loaded.run operations)).1
      events)
    (coherent : loaded.Coherent)
    (stock : Stock origin (loaded.run operations) keys (HalfDone loaded operations))
    (account : Account origin loaded operations) (id : Uuid) :
    id ∈ replay .encryption
        (replay .encryption (ids origin .encryption) (loaded.run operations).trail) events ↔
      id ∈ ids (loaded.run (operations ++ [.ask request])).store .encryption ∨
        ∃ previous, previous.id = id ∧ (HalfDone loaded (operations ++ [.ask request]) previous ∨
          LeftBehind loaded operations previous) := by
  simp only [removes.halfDone_iff coherent stock]
  rw [removes.quiet.replay, account.encryption, mem_ids, mem_ids, removes.holds]
  constructor
  · rintro (there | ⟨previous, isId, halfDone | isLeft⟩)
    · by_cases isPrevious : (loaded.run operations).ring.encryption.previous.map Key.id = some id
      · obtain ⟨previous, slot, isId⟩ := Option.map_eq_some_iff.1 isPrevious
        exact .inr ⟨previous, isId, .inl slot⟩
      · rw [if_neg isPrevious]
        exact .inl there
    · exact .inr ⟨previous, isId, .inl (halfDone.absent coherent).1⟩
    · exact .inr ⟨previous, isId, .inr isLeft⟩
  · rintro (there | ⟨previous, rfl, slot | isLeft⟩)
    · split at there
      · exact absurd rfl there
      · exact .inl there
    · rcases stock.mem_ids_or slot with there | halfDone
      · exact .inl (mem_ids.1 there)
      · exact .inr ⟨previous, rfl, .inl halfDone⟩
    · exact .inr ⟨previous, rfl, .inr isLeft⟩

theorem Rotates.replayed (rotates : Rotates key (loaded.run operations)
      (loaded.run (operations ++ [.ask request])) (perform request.ask (loaded.run operations)).1
      events)
    (coherent : loaded.Coherent) (account : Account origin loaded operations) (id : Uuid) :
    id ∈ replay .encryption
        (replay .encryption (ids origin .encryption) (loaded.run operations).trail) events ↔
      id ∈ ids (loaded.run (operations ++ [.ask request])).store .encryption ∨
        ∃ previous, previous.id = id ∧ (HalfDone loaded (operations ++ [.ask request]) previous ∨
          LeftBehind loaded operations previous) := by
  simp only [rotates.not_halfDone, false_or]
  rw [rotates.told, replay_rotationEvents, account.encryption, mem_ids, mem_ids, rotates.holds]
  by_cases isKey : id = key.id
  · simp [isKey]
  · rw [if_neg isKey]
    by_cases isPrevious : (loaded.run operations).ring.encryption.previous.map Key.id = some id
    · have notLeft (previous : Key) (isId : previous.id = id)
          (isLeft : LeftBehind loaded operations previous) : False := by
        obtain ⟨old, slot, isOld⟩ := Option.map_eq_some_iff.1 isPrevious
        exact (account.left previous isLeft).2.previous old slot (isOld.trans isId.symm)
      simpa [isKey, isPrevious] using notLeft
    · have notHalfDone (previous : Key) (isId : previous.id = id) :
          ¬HalfDone loaded operations previous := by
        intro halfDone
        obtain ⟨slot, -⟩ := halfDone.absent coherent
        rw [slot, Option.map_some, isId] at isPrevious
        exact isPrevious rfl
      rw [if_neg isPrevious]
      simp only [isKey, isPrevious, ne_eq, not_false_eq_true, true_and, false_or]
      refine or_congr_right (exists_congr fun previous => and_congr_right fun isId => ?_)
      exact or_iff_right (notHalfDone previous isId)

end Calls

theorem Account.ask {operations : List Operation} (account : Account origin loaded operations)
    (start : LoadedFrom origin loaded) {request : Request}
    (fresh : FreshIds origin (loaded.run (operations ++ [.ask request])).trail) :
    Account origin loaded (operations ++ [.ask request]) := by
  have sound := start.sound_run operations
  obtain ⟨keys, stock⟩ := start.stock_run (fresh_run fresh)
  obtain ⟨events, trail, signing, encryption⟩ := change_of_ask sound request
  have goesOn (previous : Key) : LeftBehind loaded (operations ++ [.ask request]) previous ↔
      LeftBehind loaded operations previous := by
    simp [leftBehind_concat_iff]
  have next := run_concat loaded operations (.ask request)
  refine ⟨?_, ?_, ?_⟩
  · rw [next, trail, replay_append, account.signing, signing.replayed]
  · rw [← next] at trail encryption
    intro id
    rw [trail, replay_append]
    simp only [goesOn]
    cases encryption with
    | none spares =>
        simp only [spares.quiet.replay, ids_congr spares.same, spares.halfDone_iff]
        exact account.encryption id
    | removed _ removes => exact removes.replayed start.coherent stock account id
    | rotated _ rotates => exact rotates.replayed start.coherent account id
  · intro previous isLeft
    obtain ⟨taken, forgotten⟩ := account.left previous ((goesOn previous).1 isLeft)
    rw [next] at fresh ⊢
    rw [trail]
    exact ⟨taken.append events, forgotten.ask sound taken fresh⟩

theorem LoadedFrom.account (start : LoadedFrom origin loaded) {operations : List Operation}
    (fresh : FreshIds origin (loaded.run operations).trail) : Account origin loaded operations := by
  induction operations using List.reverseRecOn with
  | nil => exact account_nil start
  | append_singleton operations operation ih =>
      have before := fresh_run fresh
      cases operation with
      | reload => exact (ih before).reload start before
      | ask request => exact (ih before).ask start fresh

theorem Account.replay_eq_iff {operations : List Operation}
    (account : Account origin loaded operations) (start : LoadedFrom origin loaded) :
    replay .encryption (ids origin .encryption) (loaded.run operations).trail =
        ids (loaded.run operations).store .encryption ↔
      ∀ previous, ¬HalfDone loaded operations previous ∧ ¬LeftBehind loaded operations previous := by
  constructor
  · intro same previous
    have gone (cause : HalfDone loaded operations previous ∨ LeftBehind loaded operations previous) :
        held (loaded.run operations).store .encryption previous.id ≠ none := by
      rw [← mem_ids, ← same, account.encryption]
      exact .inr ⟨previous, rfl, cause⟩
    constructor
    · intro halfDone
      exact gone (.inl halfDone) (halfDone.absent start.coherent).2
    · intro isLeft
      exact gone (.inr isLeft) (account.left previous isLeft).2.store
  · intro settled
    ext id
    simp [account.encryption, settled]

end Runs

/-- Let a ring be loaded from a store, and let it be asked for keys at any times, whichever writes to
the store fail, and be loaded anew at times, and let no two keys be minted under one identifier. Then
the trail tells all that has become of the signing keys of the store, and each call what it has done to
them. It tells all that has become of the encryption keys unless a rotation is half done, or was so when
the ring was loaded anew; a call tells what it has done to them unless it leaves a rotation half done, or
completes one. -/
theorem trail_tells_store {store : Store} (sound : LawfulKeyStore.Sound store)
    (breaks : List (Option (Break × StoreError))) (operations : List Operation)
    {loaded keeper : Keeper (Unreliable Store)} (isLoaded : loaded = opened ⟨store, breaks⟩)
    (isRun : keeper = loaded.run operations) (fresh : FreshIds store keeper.trail) :
    replay .signing (ids store .signing) keeper.trail = ids keeper.store .signing ∧
      (replay .encryption (ids store .encryption) keeper.trail = ids keeper.store .encryption ↔
        ∀ previous, ¬HalfDone loaded operations previous ∧
          ¬LeftBehind loaded operations previous) ∧
      ∀ before operation rest, operations = before ++ operation :: rest →
        Tells .signing (loaded.run before) (loaded.run (before ++ [operation])) ∧
          (Tells .encryption (loaded.run before) (loaded.run (before ++ [operation])) ↔
            operation = .reload ∨ ∀ previous, HalfDone loaded before previous ↔
              HalfDone loaded (before ++ [operation]) previous) := by
  subst isRun
  have start : LoadedFrom store loaded := isLoaded ▸ loadedFrom_opened sound breaks
  have account := start.account fresh
  refine ⟨account.signing, account.replay_eq_iff start, ?_⟩
  rintro before operation rest rfl
  have early : FreshIds store (loaded.run (before ++ [operation])).trail := by
    rw [List.append_cons] at fresh
    exact fresh_run fresh
  exact ⟨start.tells_signing early, start.tells_encryption_iff early⟩

theorem mended_rotation_is_told_late :
    replay .encryption (ids sampleShelf .encryption) (sampleLoaded.run mendedRotation).trail =
        ids (sampleLoaded.run mendedRotation).store .encryption ∧
      ¬Tells .encryption (sampleLoaded.run (tornRotation.take 1)) (sampleLoaded.run tornRotation) := by
  obtain ⟨-, whole, calls⟩ :=
    trail_tells_store filled_sampleShelf.sound _ mendedRotation rfl rfl fresh_mendedRotation
  have coherent : sampleLoaded.Coherent := coherent_opened filled_sampleShelf.sound
  constructor
  · refine whole.2 fun previous => ⟨fun halfDone => halfDone.not_minted (by decide), ?_⟩
    rintro ⟨before, rest, isWhole, -⟩
    have inside : Operation.reload ∈ mendedRotation := by simp [isWhole]
    simp [mendedRotation, tornRotation] at inside
  · intro tells
    obtain ⟨-, tells_iff⟩ := calls (tornRotation.take 1) _ _ rfl
    rcases tells_iff.1 tells with isReload | same
    · cases isReload
    · have torn : HalfDone sampleLoaded tornRotation (sampleKey 8 1) :=
        ⟨tornRotation.take 1, _, [], rfl, ⟨by decide, by decide, ⟨_, rfl⟩, by decide⟩,
          List.not_mem_nil, by decide⟩
      have absent := (((same _).2 torn).absent coherent).2
      exact absurd absent (by decide)

/-- If the ring is loaded anew before that, the trail never tells of it. -/
theorem torn_rotation_is_forgotten :
    (sampleKey 8 1).id ∈ replay .encryption (ids sampleShelf .encryption)
        (sampleLoaded.run (tornRotation ++ [.reload])).trail ∧
      (sampleKey 8 1).id ∉ ids (sampleLoaded.run (tornRotation ++ [.reload])).store .encryption := by
  decide

end Keeper

end Bearer
