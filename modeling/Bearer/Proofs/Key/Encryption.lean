import Bearer.Proofs.Key.Stock

namespace Bearer

open KeyStore KeyRing

/-! ## Lines -/

def awaitsRotation (trail : List AuditEvent) : Bool :=
  trail.foldl (fun awaits event =>
    match event with
    | .minted .encryption _ => false
    | .rotationFailed .encryption _ => true
    | _ => awaits) false

namespace Keeper

variable {σ : Type} [KeyStore σ] [LawfulKeyStore σ]

/-- A stock of encryption keys in order, which lacks the previous one at most while a rotation is
awaited. -/
structure Line (origin : Store) (keeper : Keeper σ) (keys : KeyTable) : Prop extends
    Stock origin keeper keys fun _ => awaitsRotation keeper.trail = true, InOrder keys

def Aged (key : Key) (keys : KeyTable) : Nat → Prop
  | 0 => keys[0]? = some key
  | 1 => keys[1]? = some key
  | _ + 2 => keys.find? key.id = none ∧
      ∃ current, keys[0]? = some current ∧ current.secret.length = keyLength

/-- A key that was current when `base` keys had been minted. -/
structure Generation (origin : Store) (keeper : Keeper σ) (keys : KeyTable) (key : Key)
    (base : Nat) : Prop where
  taken : Taken origin keeper.trail key.id
  aged : ∃ age, encryptionMints keeper.trail = base + age ∧ Aged key keys age

structure Passes (origin : Store) (keeper after : Keeper σ) (keys later : KeyTable) : Prop where
  line : Line origin after later
  generation : ∀ {key base}, Generation origin keeper keys key base →
    Generation origin after later key base

theorem Passes.refl {origin : Store} {keeper : Keeper σ} {keys : KeyTable}
    (line : Line origin keeper keys) : Passes origin keeper keeper keys keys := ⟨line, fun held => held⟩

theorem Passes.trans {origin : Store} {keeper between after : Keeper σ}
    {keys middle later : KeyTable} (first : Passes origin keeper between keys middle)
    (second : Passes origin between after middle later) : Passes origin keeper after keys later :=
  ⟨second.line, fun held => second.generation (first.generation held)⟩

theorem Stock.line {origin : Store} {keeper : Keeper σ} {keys : KeyTable} {lost : Key → Prop}
    (stock : Stock origin keeper keys lost) (inOrder : InOrder keys)
    (awaits : ∀ previous, lost previous → awaitsRotation keeper.trail = true) :
    Line origin keeper keys :=
  { stock.mono fun previous _ => awaits previous, inOrder with }

omit [KeyStore σ] [LawfulKeyStore σ] in
theorem Generation.keep {origin : Store} {keeper after : Keeper σ} {keys : KeyTable} {key : Key}
    {base : Nat} {events : List AuditEvent} (held : Generation origin keeper keys key base)
    (trail : after.trail = keeper.trail ++ events)
    (noMint : encryptionMints after.trail = encryptionMints keeper.trail) :
    Generation origin after keys key base := by
  obtain ⟨taken, age, mints, aged⟩ := held
  exact ⟨trail ▸ taken.append events, age, noMint.trans mints, aged⟩

/-! ## Steps -/

theorem Aged.shift {key minted : Key} {keys : KeyTable} {age : Nat} (aged : Aged key keys age)
    (distinct : keys.Distinct) (other : key.id ≠ minted.id)
    (length : minted.secret.length = keyLength) : Aged key (shift minted keys) (age + 1) := by
  match age, aged with
  | 0, current =>
      cases keys with
      | nil => cases current
      | cons _ older => exact current
  | 1, previous =>
      refine ⟨?_, minted, rfl, length⟩
      rw [find?_shift distinct, if_neg other, show keys[1]? = some key from previous]
      exact if_pos rfl
  | _ + 2, gone =>
      refine ⟨?_, minted, rfl, length⟩
      rw [find?_shift distinct, if_neg other, gone.1, ite_self]

omit [LawfulKeyStore σ] in
theorem EncryptionStep.awaits {keeper after : Keeper σ} {now : Instant} {draw : KeyDraw}
    {outcome : Except Error Key} (step : EncryptionStep keeper now draw outcome after)
    (noMint : encryptionMints after.trail = encryptionMints keeper.trail)
    (cause : awaitsRotation keeper.trail = true ∨
      ∃ fault, outcome = .error (.store (.saving false) fault)) :
    awaitsRotation after.trail = true := by
  cases step with
  | valid | calendarEnds => simpa using cause
  | undrawn | unremoved | unsaved => simp [written, awaitsRotation]
  | minted =>
      rw [encryptionMints_append, encryptionMints_rotationEvents] at noMint
      exact absurd noMint (Nat.succ_ne_self _)

theorem EncryptionStep.passes {origin : Store} {keeper after : Keeper σ} {keys : KeyTable}
    {now : Instant} {draw : KeyDraw} {outcome : Except Error Key} (line : Line origin keeper keys)
    (step : EncryptionStep keeper now draw outcome after) (fresh : FreshIds origin after.trail) :
    ∃ later, Passes origin keeper after keys later := by
  obtain ⟨events, trail, -⟩ := step.extends
  rcases step.stock line.toStock fresh with
    ⟨noMint, stock⟩ | ⟨mint, key, -, minted, invalid, foreign, stock⟩
  · refine ⟨keys, stock.line line.toInOrder fun previous cause => ?_,
      fun held => held.keep trail noMint⟩
    exact step.awaits noMint (cause.imp_right Tears.failed)
  · have inOrder := line.toInOrder.shift minted (line.current ▸ invalid)
    refine ⟨shift key keys, stock.line inOrder fun _ => False.elim, fun {other base} held => ?_⟩
    obtain ⟨taken, age, mints, aged⟩ := held
    refine ⟨trail ▸ taken.append events, age + 1, by rw [mint, mints, Nat.add_assoc], ?_⟩
    exact aged.shift line.distinct (fun same => foreign (same ▸ taken))
      (Key.length_of_mint minted)

theorem SigningStep.passes {origin : Store} {keeper after : Keeper σ} {keys : KeyTable}
    {now : Instant} {draw : KeyDraw} {outcome : Except Error Key} (line : Line origin keeper keys)
    (step : SigningStep keeper now draw outcome after) :
    Passes origin keeper after keys keys := by
  obtain ⟨events, trail, -⟩ := step.extends
  obtain ⟨noMint, stock⟩ := step.stock line.toStock
  refine ⟨stock.line line.toInOrder fun _ awaits => ?_, fun held => held.keep trail noMint⟩
  cases step with
  | valid | calendarEnds => exact awaits
  | undrawn | unsaved => simpa [written, awaitsRotation] using awaits
  | minted => simpa [awaitsRotation] using awaits

theorem Move.passes {origin : Store} {keeper after : Keeper σ} {keys : KeyTable}
    (line : Line origin keeper keys) (move : Move keeper after)
    (fresh : FreshIds origin after.trail) : ∃ later, Passes origin keeper after keys later := by
  cases move with
  | signing step => exact ⟨keys, step.passes line⟩
  | encryption step => exact step.passes line fresh

theorem Moves.passes {origin : Store} {keeper after : Keeper σ} {keys : KeyTable}
    (line : Line origin keeper keys) (moves : Moves keeper after)
    (fresh : FreshIds origin after.trail) : ∃ later, Passes origin keeper after keys later := by
  induction moves with
  | refl => exact ⟨keys, .refl line⟩
  | tail _ move ih =>
      obtain ⟨events, trail, -⟩ := Moves.extends (.single move)
      obtain ⟨middle, first⟩ := ih (FreshIds.of_append (trail ▸ fresh))
      obtain ⟨later, second⟩ := move.passes first.line fresh
      exact ⟨later, first.trans second⟩

/-! ## Loading -/

theorem line_reload {origin : Store} {keeper : Keeper σ}
    (sound : LawfulKeyStore.Sound keeper.store) (dated : Dated keeper.store .encryption)
    (taken : ∀ key ∈ table keeper.store .encryption, Taken origin keeper.trail key.id) :
    Line origin keeper.reload (sortByExpiry (table keeper.store .encryption)) :=
  (stock_reload sound taken).line (dated.inOrder sound) fun _ => False.elim

theorem Line.reload {origin : Store} {keeper : Keeper σ} {keys : KeyTable}
    (line : Line origin keeper keys) (settled : awaitsRotation keeper.trail = false) :
    Passes origin keeper keeper.reload keys keys := by
  have perm : (table keeper.store .encryption).Perm keys :=
    line.toStock.perm fun _ awaits => absurd (awaits.symm.trans settled) nofun
  have again : Line origin keeper.reload keys := by
    rw [← sortByExpiry_eq perm line.descending]
    refine (stock_reload line.sound fun key inside => line.taken key (perm.mem_iff.1 inside)).line ?_
      fun _ => False.elim
    rw [sortByExpiry_eq perm line.descending]
    exact line.toInOrder
  refine ⟨again, fun {key base} held => ?_⟩
  obtain ⟨taken, age, mints, aged⟩ := held
  rw [reload_of_sound line.sound]
  refine ⟨taken.append _, age, ?_, aged⟩
  rw [encryptionMints_append, encryptionMints_loadedEvents, Nat.add_zero, mints]

end Keeper

/-! ## Runs -/

namespace World

open Keeper

/-- No reload comes between a rotation of encryption keys that fails and the next that succeeds. -/
def Settled (service : TokenService) (world : World) : List Action → Prop
  | [] => True
  | action :: actions => (action = .reload → awaitsRotation world.keeper.trail = false) ∧
      Settled service (world.step service action) actions

theorem settled_append (service : TokenService) {world : World} {first second : List Action}
    (settled : Settled service world (first ++ second)) :
    Settled service world first ∧ Settled service (world.run service first) second := by
  induction first generalizing world with
  | nil => exact ⟨trivial, settled⟩
  | cons action first ih =>
      obtain ⟨now, rest⟩ := settled
      obtain ⟨begins, goesOn⟩ := ih rest
      exact ⟨⟨now, begins⟩, goesOn⟩

theorem line_start {store : Store} (filled : Filled store) (dated : Dated store .encryption)
    (clock : Instant) :
    Line store (start store clock).keeper (sortByExpiry (table store .encryption)) := by
  have sound : LawfulKeyStore.Sound (Unreliable.mk store []) := filled.sound
  refine line_reload sound ⟨dated.fit, dated.apart⟩ fun key inside => .inr ⟨.encryption, ?_⟩
  have found := (LawfulKeyStore.readable filled.sound .encryption).2.find?_of_mem inside
  rw [held, found]
  exact Option.some_ne_none key

theorem trail_step (service : TokenService) (world : World) (action : Action) :
    ∃ events, (world.step service action).keeper.trail = world.keeper.trail ++ events := by
  by_cases again : action = .reload
  · subst again
    exact world.keeper.trail_reload
  · cases effect_of_step service world again with
    | moves moves =>
        obtain ⟨events, trail, -⟩ := moves.extends
        exact ⟨events, trail⟩
    | disturbed breaks same => exact ⟨[], by rw [same, List.append_nil]⟩

theorem trail_run (service : TokenService) (world : World) (actions : List Action) :
    ∃ events, (world.run service actions).keeper.trail = world.keeper.trail ++ events := by
  induction actions generalizing world with
  | nil => exact ⟨[], by simp⟩
  | cons action actions ih =>
      obtain ⟨begins, isNext⟩ := trail_step service world action
      obtain ⟨goesOn, isLast⟩ := ih (world.step service action)
      exact ⟨begins ++ goesOn, by rw [run_cons, isLast, isNext, List.append_assoc]⟩

theorem step_passes (service : TokenService) {origin : Store} {world : World} {keys : KeyTable}
    (line : Line origin world.keeper keys) {action : Action}
    (settled : action = .reload → awaitsRotation world.keeper.trail = false)
    (fresh : FreshIds origin (world.step service action).keeper.trail) :
    ∃ later, Passes origin world.keeper (world.step service action).keeper keys later := by
  by_cases again : action = .reload
  · subst again
    exact ⟨keys, line.reload (settled rfl)⟩
  · cases effect_of_step service world again with
    | moves moves => exact moves.passes line fresh
    | disturbed breaks same =>
        rw [same]
        exact ⟨keys, { line with }, fun held => ⟨held.taken, held.aged⟩⟩

theorem run_passes (service : TokenService) {origin : Store} {world : World} {keys : KeyTable}
    (line : Line origin world.keeper keys) {actions : List Action}
    (settled : Settled service world actions)
    (fresh : FreshIds origin (world.run service actions).keeper.trail) :
    ∃ later, Passes origin world.keeper (world.run service actions).keeper keys later := by
  induction actions generalizing world keys with
  | nil => exact ⟨keys, .refl line⟩
  | cons action actions ih =>
      obtain ⟨now, rest⟩ := settled
      obtain ⟨events, trail⟩ := trail_run service (world.step service action) actions
      obtain ⟨middle, first⟩ := step_passes service line now
        (FreshIds.of_append (trail ▸ fresh))
      obtain ⟨later, second⟩ := ih first.line rest fresh
      exact ⟨later, first.trans second⟩

theorem generation_of_current (service : TokenService) {store : Store} (filled : Filled store)
    (dated : Dated store .encryption) (clock : Instant) {first rest : List Action}
    (settled : Settled service (start store clock) (first ++ rest)) {key : Key}
    (current : ((start store clock).run service first).keeper.ring.encryption.current = some key)
    (fresh : FreshIds store ((start store clock).run service (first ++ rest)).keeper.trail) :
    ∃ keys, Line store ((start store clock).run service (first ++ rest)).keeper keys ∧
      Generation store ((start store clock).run service (first ++ rest)).keeper keys key
        (encryptionMints ((start store clock).run service first).keeper.trail) := by
  rw [run_append] at fresh ⊢
  obtain ⟨begins, goesOn⟩ := settled_append service settled
  obtain ⟨events, trail⟩ := trail_run service ((start store clock).run service first) rest
  obtain ⟨keys, middle⟩ := run_passes service (line_start filled dated clock) begins
    (FreshIds.of_append (trail ▸ fresh))
  obtain ⟨later, passes⟩ := run_passes service middle.line goesOn fresh
  have isFirst : keys[0]? = some key := middle.line.current.symm.trans current
  refine ⟨later, passes.line, passes.generation ⟨?_, 0, rfl, isFirst⟩⟩
  exact middle.line.taken key (List.mem_of_getElem? isFirst)

end World

end Bearer
