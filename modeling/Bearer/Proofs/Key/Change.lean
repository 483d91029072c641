import Bearer.Proofs.Key.Consistency

namespace Bearer

open KeyStore KeyRing

/-! ## Events of a class -/

namespace AuditEvent

def mints (keyClass : KeyClass) (id : Uuid) : AuditEvent → Bool
  | .minted other key => other = keyClass && key.id = id
  | .evicted _ _ | .loaded _ _ | .rotationFailed _ _ => false

def evicts (keyClass : KeyClass) (id : Uuid) : AuditEvent → Bool
  | .evicted other gone => other = keyClass && gone = id
  | .minted _ _ | .loaded _ _ | .rotationFailed _ _ => false

end AuditEvent

def Quiet (keyClass : KeyClass) (events : List AuditEvent) : Prop :=
  ∀ event ∈ events, ∀ id, event.mints keyClass id = false ∧ event.evicts keyClass id = false

theorem quiet_nil (keyClass : KeyClass) : Quiet keyClass [] := by
  intro event inside
  cases inside

theorem quiet_rotationFailed (keyClass other : KeyClass) (reason : String) :
    Quiet keyClass [.rotationFailed other reason] := by
  intro event inside id
  rw [List.mem_singleton.1 inside]
  exact ⟨rfl, rfl⟩

theorem quiet_loadedEvents (keyClass : KeyClass) (ring : KeyRing) :
    Quiet keyClass ring.loadedEvents := by
  intro event inside id
  simp only [loadedEvents, List.mem_append, List.mem_map] at inside
  rcases inside with ⟨key, -, rfl⟩ | ⟨key, -, rfl⟩
  · exact ⟨rfl, rfl⟩
  · exact ⟨rfl, rfl⟩

theorem Taken.id_ne {origin : Store} {trail : List AuditEvent} {key minted : Key}
    {previous : Option Key} (taken : Taken origin trail key.id)
    (fresh : FreshIds origin (trail ++ Keeper.rotationEvents previous minted)) :
    key.id ≠ minted.id := by
  intro same
  apply fresh.not_taken _ taken
  rw [same, Keeper.mintedIds_rotationEvents]
  exact List.mem_singleton_self _

namespace Keeper

variable {σ : Type} [KeyStore σ] [LawfulKeyStore σ]

/-! ## Changes -/

inductive SigningChange (keeper after : Keeper σ) (events : List AuditEvent) : Prop where
  | none (quiet : Quiet .signing events)
      (same : ∀ id, held after.store .signing id = held keeper.store .signing id)
  | saved {key : Key} (told : events = [.minted .signing key])
      (holds : ∀ id, held after.store .signing id =
        if id = key.id then some key else held keeper.store .signing id)

structure Spares (keeper after : Keeper σ) (outcome : Except Error Key) (events : List AuditEvent) :
    Prop where
  quiet : Quiet .encryption events
  slots : after.ring.encryption = keeper.ring.encryption
  noMint : encryptionMints after.trail = encryptionMints keeper.trail
  whole : ∀ fault, outcome ≠ .error (.store (.saving false) fault)
  same : ∀ id, held after.store .encryption id = held keeper.store .encryption id

structure Removes (keeper after : Keeper σ) (outcome : Except Error Key) (events : List AuditEvent) :
    Prop where
  quiet : Quiet .encryption events
  slots : after.ring.encryption = keeper.ring.encryption
  noMint : encryptionMints after.trail = encryptionMints keeper.trail
  failed : ∃ fault, outcome = .error (.store (.saving false) fault)
  holds : ∀ id, held after.store .encryption id =
    if keeper.ring.encryption.previous.map Key.id = some id then none
    else held keeper.store .encryption id

structure Rotates (key : Key) (keeper after : Keeper σ) (outcome : Except Error Key)
    (events : List AuditEvent) : Prop where
  told : events = rotationEvents keeper.ring.encryption.previous key
  slots : after.ring.encryption = ⟨some key, keeper.ring.encryption.current⟩
  minted : encryptionMints after.trail = encryptionMints keeper.trail + 1
  answered : outcome = .ok key
  holds : ∀ id, held after.store .encryption id = if id = key.id then some key
    else if keeper.ring.encryption.previous.map Key.id = some id then none
    else held keeper.store .encryption id

inductive EncryptionChange (keeper after : Keeper σ) (now : Instant) (outcome : Except Error Key)
    (events : List AuditEvent) : Prop where
  | none (spares : Spares keeper after outcome events)
  | removed (invalid : ∀ current, keeper.ring.encryption.current = some current →
        current.isValid now = false)
      (removes : Removes keeper after outcome events)
  | rotated {key : Key} (invalid : ∀ current, keeper.ring.encryption.current = some current →
        current.isValid now = false)
      (rotates : Rotates key keeper after outcome events)

omit [LawfulKeyStore σ] in
theorem unchanged (keeper : Keeper σ) (now : Instant) {outcome : Except Error Key}
    (whole : ∀ fault, outcome ≠ .error (.store (.saving false) fault)) :
    ∃ events, keeper.trail = keeper.trail ++ events ∧ SigningChange keeper keeper events ∧
      EncryptionChange keeper keeper now outcome events :=
  ⟨[], (List.append_nil _).symm, .none (quiet_nil _) fun _ => rfl,
    .none ⟨quiet_nil _, rfl, rfl, whole, fun _ => rfl⟩⟩

omit [LawfulKeyStore σ] in
theorem failed_change (keeper : Keeper σ) (now : Instant) {store : σ} {outcome : Except Error Key}
    (same : ∀ keyClass id, held store keyClass id = held keeper.store keyClass id)
    (whole : ∀ fault, outcome ≠ .error (.store (.saving false) fault)) (keyClass : KeyClass)
    (reason : String) :
    ∃ events, (keeper.written store [.rotationFailed keyClass reason]).trail =
        keeper.trail ++ events ∧
      SigningChange keeper (keeper.written store [.rotationFailed keyClass reason]) events ∧
      EncryptionChange keeper (keeper.written store [.rotationFailed keyClass reason]) now outcome
        events :=
  ⟨_, rfl, .none (quiet_rotationFailed _ _ _) (same .signing), .none ⟨quiet_rotationFailed _ _ _,
    rfl, encryptionMints_append _ _, whole, same .encryption⟩⟩

theorem SigningStep.change {keeper after : Keeper σ} {now : Instant} {draw : KeyDraw}
    {outcome : Except Error Key} (sound : LawfulKeyStore.Sound keeper.store)
    (step : SigningStep keeper now draw outcome after) :
    ∃ events, after.trail = keeper.trail ++ events ∧ SigningChange keeper after events ∧
      EncryptionChange keeper after now outcome events := by
  cases step with
  | valid | calendarEnds => exact unchanged keeper now fun _ => nofun
  | undrawn => exact failed_change keeper now (fun _ _ => rfl) (fun _ => by nofun) _ _
  | unsaved minted failed =>
      obtain ⟨-, same⟩ := LawfulKeyStore.unsaved sound failed
      exact failed_change keeper now same (fun _ => by nofun) _ _
  | @minted key store minted saved =>
      obtain ⟨-, holds⟩ := LawfulKeyStore.saved sound saved
      have silent : Quiet .encryption [.minted .signing key] := by
        intro event inside id
        rw [List.mem_singleton.1 inside]
        exact ⟨rfl, rfl⟩
      refine ⟨_, rfl, .saved rfl fun id => ?_,
        .none ⟨silent, rfl, encryptionMints_append _ _, fun _ => nofun, fun id => ?_⟩⟩
      · rw [holds]
        simp
      · rw [holds]
        simp

theorem EncryptionStep.change {keeper after : Keeper σ} {now : Instant} {draw : KeyDraw}
    {outcome : Except Error Key} (sound : LawfulKeyStore.Sound keeper.store)
    (step : EncryptionStep keeper now draw outcome after)
    (invalid : ∀ current, keeper.ring.encryption.current = some current →
      current.isValid now = false) :
    ∃ events, after.trail = keeper.trail ++ events ∧ SigningChange keeper after events ∧
      EncryptionChange keeper after now outcome events := by
  cases step with
  | valid | calendarEnds => exact unchanged keeper now fun _ => nofun
  | undrawn => exact failed_change keeper now (fun _ _ => rfl) (fun _ => by nofun) _ _
  | unremoved minted previous failed =>
      obtain ⟨-, same⟩ := LawfulKeyStore.unremoved sound failed
      exact failed_change keeper now same (fun _ => by nofun) _ _
  | @unsaved key cleared store fault minted removed failed =>
      obtain ⟨between, clears⟩ := removed.holds sound
      obtain ⟨-, same⟩ := LawfulKeyStore.unsaved between failed
      refine ⟨_, rfl, .none (quiet_rotationFailed _ _ _) fun id => ?_, .removed invalid
        ⟨quiet_rotationFailed _ _ _, rfl, encryptionMints_append _ _, ⟨fault, rfl⟩, fun id => ?_⟩⟩
      · exact (same .signing id).trans ((clears .signing id).trans (by simp))
      · exact (same .encryption id).trans ((clears .encryption id).trans (by simp))
  | @minted key cleared store minted _ removed saved =>
      obtain ⟨between, clears⟩ := removed.holds sound
      obtain ⟨-, holds⟩ := LawfulKeyStore.saved between saved
      have silent : Quiet .signing (rotationEvents keeper.ring.encryption.previous key) := by
        intro event inside id
        simp only [rotationEvents, List.mem_append, Option.mem_toList, Option.map_eq_some_iff,
          List.mem_singleton] at inside
        rcases inside with ⟨old, -, rfl⟩ | rfl
        · exact ⟨rfl, rfl⟩
        · exact ⟨rfl, rfl⟩
      refine ⟨_, rfl, .none silent fun id => ?_, .rotated invalid ⟨rfl, rfl, ?_, rfl, fun id => ?_⟩⟩
      · rw [holds, clears]
        simp
      · rw [encryptionMints_append, encryptionMints_rotationEvents]
      · rw [holds, clears]
        simp

theorem change_of_ask {keeper : Keeper σ} (sound : LawfulKeyStore.Sound keeper.store)
    (request : Request) :
    ∃ events, (keeper.operate (.ask request)).trail = keeper.trail ++ events ∧
      SigningChange keeper (keeper.operate (.ask request)) events ∧
      EncryptionChange keeper (keeper.operate (.ask request)) request.now
        (perform request.ask keeper).1 events := by
  cases found : request.valid? keeper.ring with
  | some key =>
      rw [operate, Request.ask_of_valid found]
      exact unchanged keeper request.now fun _ => nofun
  | none =>
      rcases Request.ask_step (rfl : perform request.ask keeper = _) with
        ⟨-, step⟩ | ⟨keyClass, step⟩
      · exact step.change sound
      · refine step.change sound fun current there => ?_
        exact Request.isValid_of_valid?_eq_none found (by rw [keyClass]; exact there)

/-! ## Rotations that are half done -/

theorem cut_of_concat {operations before rest : List Operation} {operation last : Operation}
    (whole : operations ++ [last] = before ++ operation :: rest) :
    (before = operations ∧ operation = last ∧ rest = []) ∨
      ∃ shorter, rest = shorter ++ [last] ∧ operations = before ++ operation :: shorter := by
  cases rest using List.reverseRecOn with
  | nil =>
      obtain ⟨same, isLast⟩ := List.append_inj' whole rfl
      exact .inl ⟨same.symm, (List.singleton_inj.1 isLast).symm, rfl⟩
  | append_singleton shorter other =>
      rw [← List.cons_append, ← List.append_assoc] at whole
      obtain ⟨same, isLast⟩ := List.append_inj' whole rfl
      exact .inr ⟨shorter, by rw [isLast], same⟩

omit [LawfulKeyStore σ] in
theorem halfDone_concat_iff {loaded : Keeper σ} {operations : List Operation} {operation : Operation}
    {previous : Key} : HalfDone loaded (operations ++ [operation]) previous ↔
      encryptionMints (loaded.run (operations ++ [operation])).trail =
        encryptionMints (loaded.run operations).trail ∧
      ((∃ request, operation = .ask request ∧
        Tears (loaded.run operations) (loaded.run (operations ++ [operation]))
          (perform request.ask (loaded.run operations)).1 previous) ∨
      operation ≠ .reload ∧ HalfDone loaded operations previous) := by
  constructor
  · rintro ⟨before, request, rest, whole, tears, noReload, still⟩
    rcases cut_of_concat whole with ⟨rfl, rfl, rfl⟩ | ⟨rest, rfl, rfl⟩
    · exact ⟨still, .inl ⟨request, rfl, tears⟩⟩
    · have begins := encryptionMints_run (loaded.run before) (.ask request :: rest)
      have goesOn := encryptionMints_run (loaded.run (before ++ .ask request :: rest)) [operation]
      rw [← run_append] at begins goesOn
      simp only [List.mem_append, List.mem_singleton, not_or] at noReload
      exact ⟨by omega, .inr ⟨Ne.symm noReload.2,
        before, request, rest, rfl, tears, noReload.1, by omega⟩⟩
  · rintro ⟨noMint, ⟨request, rfl, tears⟩ | ⟨goesOn, halfDone⟩⟩
    · exact ⟨operations, request, [], rfl, tears, List.not_mem_nil, noMint⟩
    · exact halfDone.concat goesOn noMint

omit [LawfulKeyStore σ] in
theorem not_halfDone_reload {loaded : Keeper σ} {operations : List Operation} {previous : Key} :
    ¬HalfDone loaded (operations ++ [.reload]) previous := by
  rw [halfDone_concat_iff]
  rintro ⟨-, ⟨request, isAsk, -⟩ | ⟨goesOn, -⟩⟩
  · cases isAsk
  · exact goesOn rfl

theorem HalfDone.absent {loaded : Keeper σ} (coherent : loaded.Coherent) {operations : List Operation}
    {previous : Key} (halfDone : HalfDone loaded operations previous) :
    (loaded.run operations).ring.encryption.previous = some previous ∧
      held (loaded.run operations).store .encryption previous.id = none := by
  induction operations using List.reverseRecOn with
  | nil =>
      obtain ⟨before, request, rest, whole, -⟩ := halfDone
      simp at whole
  | append_singleton operations operation ih =>
      obtain ⟨noMint, ⟨request, rfl, tears⟩ | ⟨goesOn, before⟩⟩ := halfDone_concat_iff.1 halfDone
      · rcases done : perform request.ask (loaded.run operations) with ⟨outcome, after⟩
        have isAfter : loaded.run (operations ++ [.ask request]) = after := by
          rw [run_concat, operate, done]
        rw [isAfter, done] at tears
        obtain ⟨fault, rfl⟩ := tears.failed
        rw [isAfter, Request.ring_of_ask_error done]
        exact ⟨tears.slot, tears.removed⟩
      · obtain ⟨slot, gone⟩ := ih before
        cases operation with
        | reload => exact absurd rfl goesOn
        | ask request =>
            have sound := (run_coherent_extends coherent operations).1.sound
            obtain ⟨events, -, -, change⟩ := change_of_ask sound request
            rw [run_concat] at noMint ⊢
            -- Only a mint saves a key, and that would have ended the rotation.
            cases change with
            | none spares =>
                rw [spares.slots, spares.same]
                exact ⟨slot, gone⟩
            | removed _ removes =>
                rw [removes.slots, removes.holds, gone, ite_self]
                exact ⟨slot, rfl⟩
            | rotated _ rotates =>
                rw [rotates.minted] at noMint
                exact absurd noMint (Nat.succ_ne_self _)

section Requests

variable {origin : Store} {loaded : Keeper σ} {keys : KeyTable} {operations : List Operation}
  {request : Request} {events : List AuditEvent} {previous key : Key}

omit [LawfulKeyStore σ] in
theorem Spares.halfDone_iff (spares : Spares (loaded.run operations)
      (loaded.run (operations ++ [.ask request])) (perform request.ask (loaded.run operations)).1
      events) :
    HalfDone loaded (operations ++ [.ask request]) previous ↔ HalfDone loaded operations previous := by
  rw [halfDone_concat_iff]
  constructor
  · rintro ⟨-, ⟨other, isAsk, tears⟩ | ⟨-, halfDone⟩⟩
    · obtain rfl : request = other := by simpa using isAsk
      obtain ⟨fault, failed⟩ := tears.failed
      exact absurd failed (spares.whole fault)
    · exact halfDone
  · intro halfDone
    exact ⟨spares.noMint, .inr ⟨nofun, halfDone⟩⟩

theorem Removes.halfDone_iff (removes : Removes (loaded.run operations)
      (loaded.run (operations ++ [.ask request])) (perform request.ask (loaded.run operations)).1
      events)
    (coherent : loaded.Coherent)
    (stock : Stock origin (loaded.run operations) keys (HalfDone loaded operations)) :
    HalfDone loaded (operations ++ [.ask request]) previous ↔
      (loaded.run operations).ring.encryption.previous = some previous := by
  constructor
  · intro halfDone
    rw [← removes.slots]
    exact (halfDone.absent coherent).1
  · intro slot
    have gone : held (loaded.run (operations ++ [.ask request])).store .encryption previous.id =
        none := by
      rw [removes.holds, slot]
      exact if_pos rfl
    rw [halfDone_concat_iff]
    rcases stock.held_previous (stock.previous.symm.trans slot) with stored | ⟨-, halfDone⟩
    · exact ⟨removes.noMint, .inl ⟨request, rfl, slot, stored, removes.failed, gone⟩⟩
    · exact ⟨removes.noMint, .inr ⟨nofun, halfDone⟩⟩

omit [LawfulKeyStore σ] in
theorem Rotates.not_halfDone (rotates : Rotates key (loaded.run operations)
      (loaded.run (operations ++ [.ask request])) (perform request.ask (loaded.run operations)).1
      events) :
    ¬HalfDone loaded (operations ++ [.ask request]) previous := by
  intro halfDone
  have minted := rotates.minted
  apply halfDone.not_minted
  omega

end Requests

/-! ## Keys that are gone -/

theorem held_of_slotted_reload {keeper : Keeper σ} (sound : LawfulKeyStore.Sound keeper.store)
    {key : Key} (slotted : keeper.reload.ring.Slotted key) :
    held keeper.store .encryption key.id = some key := by
  have inside : key ∈ table keeper.store .encryption := by
    rw [reload_of_sound sound] at slotted
    apply (sortByExpiry_perm _).mem_iff.1
    rcases slotted with current | previous
    · exact List.mem_of_getElem? current
    · exact List.mem_of_getElem? previous
  exact (LawfulKeyStore.readable sound .encryption).2.find?_of_mem inside

theorem store_reload {keeper : Keeper σ} (sound : LawfulKeyStore.Sound keeper.store) :
    keeper.reload.store = keeper.store := by
  rw [reload_of_sound sound]

omit [LawfulKeyStore σ] in
theorem Forgotten.id_ne {keeper : Keeper σ} {key other : Key} (forgotten : keeper.Forgotten key)
    (slotted : keeper.ring.Slotted other) : other.id ≠ key.id := by
  rcases slotted with isCurrent | isPrevious
  · exact forgotten.current other isCurrent
  · exact forgotten.previous other isPrevious

theorem forgotten_reload {keeper : Keeper σ} (sound : LawfulKeyStore.Sound keeper.store) {key : Key}
    (gone : held keeper.store .encryption key.id = none) : keeper.reload.Forgotten key := by
  have foreign (other : Key) (slotted : keeper.reload.ring.Slotted other) : other.id ≠ key.id := by
    intro same
    rw [← same, held_of_slotted_reload sound slotted] at gone
    cases gone
  refine ⟨fun other isCurrent => foreign other (.inl isCurrent),
    fun other isPrevious => foreign other (.inr isPrevious), ?_⟩
  rw [store_reload sound, gone]

theorem Forgotten.ask {origin : Store} {keeper : Keeper σ}
    (sound : LawfulKeyStore.Sound keeper.store) {key : Key} (forgotten : keeper.Forgotten key)
    (taken : Taken origin keeper.trail key.id) {request : Request}
    (fresh : FreshIds origin (keeper.operate (.ask request)).trail) :
    (keeper.operate (.ask request)).Forgotten key := by
  obtain ⟨events, trail, -, change⟩ := change_of_ask sound request
  cases change with
  | none spares =>
      exact ⟨spares.slots ▸ forgotten.current, spares.slots ▸ forgotten.previous,
        (spares.same _).trans forgotten.store⟩
  | removed _ removes =>
      refine ⟨removes.slots ▸ forgotten.current, removes.slots ▸ forgotten.previous, ?_⟩
      rw [removes.holds, forgotten.store, ite_self]
  | @rotated minted _ rotates =>
      have other : key.id ≠ minted.id := taken.id_ne (rotates.told ▸ trail ▸ fresh)
      refine ⟨?_, ?_, by rw [rotates.holds, if_neg other, forgotten.store, ite_self]⟩
      · rw [rotates.slots]
        rintro _ ⟨⟩
        exact other.symm
      · rw [rotates.slots]
        exact forgotten.current

/-! ## Runs -/

structure LoadedFrom (origin : Store) (loaded : Keeper σ) : Prop where
  coherent : loaded.Coherent
  stock : ∃ keys, Stock origin loaded keys fun _ => False
  same : ∀ keyClass id, held loaded.store keyClass id = held origin keyClass id
  quiet : ∀ keyClass, Quiet keyClass loaded.trail

section Runs

variable {origin : Store} {loaded : Keeper σ}

theorem LoadedFrom.stock_run (start : LoadedFrom origin loaded) {operations : List Operation}
    (fresh : FreshIds origin (loaded.run operations).trail) :
    ∃ keys, Stock origin (loaded.run operations) keys (HalfDone loaded operations) := by
  obtain ⟨first, start⟩ := start.stock
  obtain ⟨keys, stock, -⟩ := run_stock start operations fresh
  exact ⟨keys, stock⟩

theorem LoadedFrom.sound_run (start : LoadedFrom origin loaded) (operations : List Operation) :
    LawfulKeyStore.Sound (loaded.run operations).store :=
  (run_coherent_extends start.coherent operations).1.sound

theorem LoadedFrom.taken (start : LoadedFrom origin loaded) {operations : List Operation}
    (fresh : FreshIds origin (loaded.run operations).trail) {keyClass : KeyClass} {id : Uuid}
    (there : held (loaded.run operations).store keyClass id ≠ none) :
    Taken origin (loaded.run operations).trail id := by
  cases keyClass with
  | signing =>
      obtain ⟨after, events, trail, knows⟩ := run_coherent_extends start.coherent operations
      by_cases minted : id ∈ mintedIds events
      · left
        rw [trail, mintedIds_append]
        exact List.mem_append_right _ minted
      · right
        refine ⟨.signing, ?_⟩
        rwa [← start.same, ← start.coherent.agree, ← knows id minted, after.agree]
  | encryption =>
      obtain ⟨keys, stock⟩ := start.stock_run fresh
      obtain ⟨key, found⟩ := Option.ne_none_iff_exists'.1 there
      obtain ⟨inside, rfl⟩ := stock.mem_of_held found
      exact stock.taken key inside

omit [LawfulKeyStore σ] in
theorem fresh_run {first second : List Operation}
    (fresh : FreshIds origin (loaded.run (first ++ second)).trail) :
    FreshIds origin (loaded.run first).trail := by
  obtain ⟨events, trail⟩ := trail_run (loaded.run first) second
  rw [run_append, trail] at fresh
  exact FreshIds.of_append fresh

end Runs

theorem loadedFrom_opened {store : Store} (sound : LawfulKeyStore.Sound store)
    (breaks : List (Option (Break × StoreError))) :
    LoadedFrom store (opened (Unreliable.mk store breaks)) := by
  have ready : LawfulKeyStore.Sound (Unreliable.mk store breaks) := sound
  refine ⟨coherent_opened ready, ⟨_, stock_opened ready⟩, fun keyClass id => ?_, fun keyClass => ?_⟩
  · rw [store_opened]
    rfl
  · rw [opened, reload_of_sound ready]
    exact quiet_loadedEvents keyClass _

end Keeper

end Bearer
