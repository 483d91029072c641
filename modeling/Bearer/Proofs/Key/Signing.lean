import Bearer.Proofs.Run

namespace Bearer

open KeyStore

/-! ## Minted identifiers -/

def mintedIds (trail : List AuditEvent) : List Uuid :=
  trail.filterMap fun
    | .minted _ key => some key.id
    | _ => none

theorem mintedIds_append (first second : List AuditEvent) :
    mintedIds (first ++ second) = mintedIds first ++ mintedIds second := List.filterMap_append

/-- No key has been minted under the identifier of another, nor of one that the store held at the
start. -/
structure FreshIds (store : Store) (trail : List AuditEvent) : Prop where
  distinct : (mintedIds trail).Nodup
  fresh : ∀ id ∈ mintedIds trail, ∀ keyClass, held store keyClass id = none

theorem freshIds_iff {store : Store} {trail : List AuditEvent} :
    FreshIds store trail ↔ (mintedIds trail).Nodup ∧
      ∀ id ∈ mintedIds trail, held store .signing id = none ∧ held store .encryption id = none := by
  constructor
  · rintro ⟨distinct, fresh⟩
    exact ⟨distinct, fun id minted => ⟨fresh id minted .signing, fresh id minted .encryption⟩⟩
  · rintro ⟨distinct, absent⟩
    refine ⟨distinct, fun id minted keyClass => ?_⟩
    cases keyClass with
    | signing => exact (absent id minted).1
    | encryption => exact (absent id minted).2

instance (store : Store) (trail : List AuditEvent) : Decidable (FreshIds store trail) :=
  decidable_of_iff _ freshIds_iff.symm

namespace Keeper

variable {σ : Type} [KeyStore σ]

theorem mintedIds_rotationEvents (previous : Option Key) (key : Key) :
    mintedIds (rotationEvents previous key) = [key.id] := by
  cases previous <;> rfl

variable [LawfulKeyStore σ]

/-! ## Loading -/

theorem load_of_sound {store : σ} (sound : LawfulKeyStore.Sound store) :
    load store = (.ok (KeyRing.ofTables (table store .signing) (table store .encryption)),
      (KeyRing.ofTables (table store .signing) (table store .encryption)).loadedEvents) := by
  rw [load, (LawfulKeyStore.readable sound .signing).1,
    (LawfulKeyStore.readable sound .encryption).1]

theorem reload_of_sound {keeper : Keeper σ} (sound : LawfulKeyStore.Sound keeper.store) :
    keeper.reload =
      ⟨KeyRing.ofTables (table keeper.store .signing) (table keeper.store .encryption),
        keeper.store, keeper.trail ++ (KeyRing.ofTables (table keeper.store .signing)
          (table keeper.store .encryption)).loadedEvents⟩ := by
  rw [reload, load_of_sound sound]

theorem mem_of_foldl {choose : Option Key → Key → Option Key}
    (either : ∀ best key, choose best key = best ∨ choose best key = some key) {keys : List Key}
    {best : Option Key} {found : Key} (last : keys.foldl choose best = some found) :
    best = some found ∨ found ∈ keys := by
  induction keys generalizing best with
  | nil => exact .inl last
  | cons key keys ih =>
      rcases ih last with better | inside
      · rcases either best key with same | taken
        · exact .inl (same.symm.trans better)
        · obtain rfl := Option.some.inj (taken.symm.trans better)
          exact .inr List.mem_cons_self
      · exact .inr (List.mem_cons_of_mem _ inside)

theorem mem_of_latest? {keys : List Key} {found : Key} (latest : KeyRing.latest? keys = some found) :
    found ∈ keys := by
  refine (mem_of_foldl (fun best key => ?_) latest).resolve_left nofun
  cases best with
  | none => exact .inr rfl
  | some held =>
      by_cases before : key.expiresAt < held.expiresAt
      · exact .inl (if_pos before)
      · exact .inr (if_neg before)

/-! ## Coherence -/

structure Coherent (keeper : Keeper σ) : Prop where
  sound : LawfulKeyStore.Sound keeper.store
  agree : ∀ id, keeper.ring.signing.all.find? id = held keeper.store .signing id
  current : ∀ key, keeper.ring.signing.current = some key →
    keeper.ring.signing.all.find? key.id = some key

theorem coherent_reload {keeper : Keeper σ} (sound : LawfulKeyStore.Sound keeper.store) :
    keeper.reload.Coherent := by
  rw [reload_of_sound sound]
  refine ⟨sound, fun id => rfl, fun key current => ?_⟩
  exact (LawfulKeyStore.readable sound .signing).2.find?_of_mem (mem_of_latest? current)

theorem SigningStep.coherent {keeper after : Keeper σ} {now : Instant} {draw : KeyDraw}
    {outcome : Except Error Key} (coherent : keeper.Coherent)
    (step : SigningStep keeper now draw outcome after) : after.Coherent := by
  cases step with
  | valid | calendarEnds => exact coherent
  | undrawn => exact { coherent with }
  | unsaved minted failed =>
      obtain ⟨sound, same⟩ := LawfulKeyStore.unsaved coherent.sound failed
      exact ⟨sound, fun id => (coherent.agree id).trans (same .signing id).symm, coherent.current⟩
  | @minted key store minted saved =>
      obtain ⟨sound, holds⟩ := LawfulKeyStore.saved coherent.sound saved
      refine ⟨sound, fun id => ?_, fun other current => ?_⟩
      · rw [holds]
        simp only [true_and, KeyRing.installSigningKey, KeyTable.find?_insert, coherent.agree]
      · obtain rfl := Option.some.inj current
        simp only [KeyRing.installSigningKey, KeyTable.find?_insert, if_true]

theorem Cleared.holds {store cleared : σ} {previous : Option Key}
    (sound : LawfulKeyStore.Sound store) (removed : Cleared store previous cleared) :
    LawfulKeyStore.Sound cleared ∧ ∀ keyClass id, held cleared keyClass id =
      if keyClass = .encryption ∧ previous.map Key.id = some id then none
      else held store keyClass id := by
  cases removed with
  | nothing => exact ⟨sound, fun _ _ => by simp⟩
  | @removed previous cleared done =>
      obtain ⟨after, holds⟩ := LawfulKeyStore.removed sound done
      refine ⟨after, fun keyClass id => ?_⟩
      rw [holds]
      simp only [Option.map_some, Option.some.injEq, eq_comm]

theorem EncryptionStep.coherent {keeper after : Keeper σ} {now : Instant} {draw : KeyDraw}
    {outcome : Except Error Key} (coherent : keeper.Coherent)
    (step : EncryptionStep keeper now draw outcome after) : after.Coherent := by
  cases step with
  | valid | calendarEnds => exact coherent
  | undrawn => exact { coherent with }
  | unremoved minted held failed =>
      obtain ⟨sound, same⟩ := LawfulKeyStore.unremoved coherent.sound failed
      exact ⟨sound, fun id => (coherent.agree id).trans (same .signing id).symm, coherent.current⟩
  | unsaved minted removed failed =>
      obtain ⟨between, cleared⟩ := removed.holds coherent.sound
      obtain ⟨sound, same⟩ := LawfulKeyStore.unsaved between failed
      refine ⟨sound, fun id => (coherent.agree id).trans ?_, coherent.current⟩
      exact ((same .signing id).trans ((cleared .signing id).trans (by simp))).symm
  | minted minted invalid removed saved =>
      obtain ⟨between, cleared⟩ := removed.holds coherent.sound
      obtain ⟨sound, holds⟩ := LawfulKeyStore.saved between saved
      refine ⟨sound, fun id => ?_, coherent.current⟩
      rw [holds, cleared]
      simpa [KeyRing.installEncryptionKey] using coherent.agree id

theorem Moves.coherent {keeper after : Keeper σ} (moves : Moves keeper after)
    (coherent : keeper.Coherent) : after.Coherent := by
  induction moves with
  | refl => exact coherent
  | tail _ move ih =>
      cases move with
      | signing step => exact step.coherent ih
      | encryption step => exact step.coherent ih

/-! ## What the ring knows -/

/-- The trail goes on, and only what it tells to be minted may have changed. -/
def Extends (keeper after : Keeper σ) : Prop :=
  ∃ events, after.trail = keeper.trail ++ events ∧ ∀ id ∉ mintedIds events,
    after.ring.signing.all.find? id = keeper.ring.signing.all.find? id

omit [KeyStore σ] [LawfulKeyStore σ] in
theorem Extends.refl (keeper : Keeper σ) : Extends keeper keeper :=
  ⟨[], by simp, fun _ _ => rfl⟩

omit [KeyStore σ] [LawfulKeyStore σ] in
theorem Extends.trans {keeper between after : Keeper σ} (first : Extends keeper between)
    (second : Extends between after) : Extends keeper after := by
  obtain ⟨begins, isBetween, knows⟩ := first
  obtain ⟨goesOn, isAfter, knowsStill⟩ := second
  refine ⟨begins ++ goesOn, by rw [isAfter, isBetween, List.append_assoc], fun id fresh => ?_⟩
  rw [mintedIds_append, List.mem_append, not_or] at fresh
  rw [knowsStill id fresh.2, knows id fresh.1]

omit [LawfulKeyStore σ] in
theorem SigningStep.extends {keeper after : Keeper σ} {now : Instant} {draw : KeyDraw}
    {outcome : Except Error Key} (step : SigningStep keeper now draw outcome after) :
    Extends keeper after := by
  cases step with
  | valid | calendarEnds => exact .refl keeper
  | undrawn | unsaved => exact ⟨_, rfl, fun _ _ => rfl⟩
  | @minted key store minted saved =>
      refine ⟨_, rfl, fun id fresh => ?_⟩
      have apart : id ≠ key.id := by simpa [mintedIds] using fresh
      simp only [KeyRing.installSigningKey, KeyTable.find?_insert, apart, if_false]

omit [LawfulKeyStore σ] in
theorem EncryptionStep.extends {keeper after : Keeper σ} {now : Instant} {draw : KeyDraw}
    {outcome : Except Error Key} (step : EncryptionStep keeper now draw outcome after) :
    Extends keeper after := by
  cases step with
  | valid | calendarEnds => exact .refl keeper
  | undrawn | unremoved | unsaved | minted => exact ⟨_, rfl, fun _ _ => rfl⟩

omit [LawfulKeyStore σ] in
theorem Moves.extends {keeper after : Keeper σ} (moves : Moves keeper after) :
    Extends keeper after := by
  induction moves with
  | refl => exact .refl keeper
  | tail _ move ih =>
      cases move with
      | signing step => exact ih.trans step.extends
      | encryption step => exact ih.trans step.extends

theorem extends_reload {keeper : Keeper σ} (coherent : keeper.Coherent) :
    Extends keeper keeper.reload := by
  rw [reload_of_sound coherent.sound]
  exact ⟨_, rfl, fun id _ => (coherent.agree id).symm⟩

theorem SigningStep.known {keeper after : Keeper σ} {now : Instant} {draw : KeyDraw} {key : Key}
    (coherent : keeper.Coherent) (step : SigningStep keeper now draw (.ok key) after) :
    after.ring.signing.all.find? key.id = some key := by
  cases step with
  | valid current valid => exact coherent.current key current
  | minted minted saved =>
      simp only [KeyRing.installSigningKey, KeyTable.find?_insert, if_true]

theorem known_of_fresh {origin : Store} {loaded earlier later : Keeper σ}
    (coherent : loaded.Coherent)
    (same : ∀ id, held loaded.store .signing id = held origin .signing id)
    (first : Extends loaded earlier) (second : Extends earlier later)
    (fresh : FreshIds origin later.trail) {id : Uuid} {key : Key}
    (known : earlier.ring.signing.all.find? id = some key) :
    later.ring.signing.all.find? id = some key := by
  obtain ⟨begins, isEarlier, knew⟩ := first
  obtain ⟨goesOn, isLater, knows⟩ := second
  have minted : mintedIds later.trail =
      mintedIds loaded.trail ++ mintedIds begins ++ mintedIds goesOn := by
    rw [isLater, isEarlier, mintedIds_append, mintedIds_append]
  rw [knows id ?_, known]
  intro again
  by_cases before : id ∈ mintedIds begins
  · have distinct := fresh.distinct
    rw [minted, List.append_assoc] at distinct
    exact (List.nodup_append.1 (List.nodup_append.1 distinct).2.1).2.2 id before id again rfl
  · -- Then the key has been there from the start, and its identifier has not been minted.
    have atStart := coherent.agree id
    rw [← knew id before, known, same] at atStart
    have foreign := fresh.fresh id (by rw [minted]; exact List.mem_append_right _ again) .signing
    rw [foreign] at atStart
    cases atStart

end Keeper

/-! ## Runs -/

namespace World

open Keeper

theorem coherent_start {store : Store} (filled : Filled store) (clock : Instant) :
    (start store clock).keeper.Coherent :=
  coherent_reload filled.sound

theorem held_start {store : Store} (filled : Filled store) (clock : Instant) (id : Uuid) :
    held (start store clock).keeper.store .signing id = held store .signing id := by
  rw [start, reload_of_sound (show LawfulKeyStore.Sound (Unreliable.mk store []) from filled.sound)]
  rfl

theorem step_coherent_extends (service : TokenService) {world : World}
    (coherent : world.keeper.Coherent) (action : Action) :
    (world.step service action).keeper.Coherent ∧
      Extends world.keeper (world.step service action).keeper := by
  by_cases again : action = .reload
  · subst again
    exact ⟨coherent_reload coherent.sound, extends_reload coherent⟩
  · cases effect_of_step service world again with
    | moves moves => exact ⟨moves.coherent coherent, moves.extends⟩
    | disturbed breaks same =>
        rw [same]
        exact ⟨⟨coherent.sound, coherent.agree, coherent.current⟩, .refl world.keeper⟩

theorem run_coherent_extends (service : TokenService) {world : World}
    (coherent : world.keeper.Coherent) (actions : List Action) :
    (world.run service actions).keeper.Coherent ∧
      Extends world.keeper (world.run service actions).keeper := by
  induction actions generalizing world with
  | nil => exact ⟨coherent, .refl _⟩
  | cons action actions ih =>
      obtain ⟨stepped, first⟩ := step_coherent_extends service coherent action
      obtain ⟨ran, rest⟩ := ih stepped
      exact ⟨ran, first.trans rest⟩

theorem known_after_run (service : TokenService) {store : Store} (filled : Filled store)
    (clock : Instant) (before later : List Action) {keeper after : Keeper (Unreliable Store)}
    (moves : Moves ((start store clock).run service before).keeper keeper) {now : Instant}
    {draw : KeyDraw} {key : Key} (step : SigningStep keeper now draw (.ok key) after)
    {signed : World} (left : signed.keeper = after)
    (fresh : FreshIds store (signed.run service later).keeper.trail) :
    (signed.run service later).keeper.ring.signing.all.find? key.id = some key := by
  obtain ⟨coherent, first⟩ := run_coherent_extends service (coherent_start filled clock) before
  have beforeStep := moves.coherent coherent
  have afterStep : signed.keeper.Coherent := left ▸ step.coherent beforeStep
  obtain ⟨-, rest⟩ := run_coherent_extends service afterStep later
  rw [left] at rest
  exact known_of_fresh (coherent_start filled clock) (held_start filled clock)
    ((first.trans moves.extends).trans step.extends) rest fresh (step.known beforeStep)

end World

end Bearer
