import Bearer.Proofs.Key.Section
import Mathlib.Data.List.Induction
import Mathlib.Logic.Function.Basic
/-!
# Callers that race for a key

* `Race`: callers that take their sections in any order. If their clocks are close, at most one of them
  rotates (`run_raced`).
* `Recorded`: a store that takes note of its writes. On it the callers mint one key, and save it once
  (`racing_callers_mint_once`).
-/

namespace Bearer

open KeyStore

/-! ## Races -/

structure Race (σ : Type) (n : Nat) where
  keeper : Keeper σ
  callers : Fin n → Caller

namespace Race

open Keeper

variable {σ : Type} [KeyStore σ] {n : Nat}

def start (keeper : Keeper σ) : Race σ n := ⟨keeper, fun _ => .ready⟩

def turn (requests : Fin n → Request) (race : Race σ n) (i : Fin n) : Race σ n :=
  let (caller, keeper) := (requests i).advance race.keeper (race.callers i)
  ⟨keeper, Function.update race.callers i caller⟩

def run (requests : Fin n → Request) (race : Race σ n) (schedule : List (Fin n)) : Race σ n :=
  schedule.foldl (turn requests) race

theorem run_concat (requests : Fin n → Request) (race : Race σ n) (schedule : List (Fin n))
    (i : Fin n) : race.run requests (schedule ++ [i]) = (race.run requests schedule).turn requests i :=
  List.foldl_append

theorem left_run (requests : Fin n → Request) (keeper : Keeper σ) (schedule : List (Fin n))
    (i : Fin n) :
    (((start keeper).run requests schedule).callers i).left ≤ 2 - schedule.count i := by
  induction schedule using List.reverseRecOn with
  | nil => exact Nat.le_refl 2
  | append_singleton schedule j ih =>
      rw [run_concat, turn, List.count_append]
      by_cases same : i = j
      · subst same
        have step := (requests i).left_advance ((start keeper).run requests schedule).keeper
          (((start keeper).run requests schedule).callers i)
        simp only [Function.update_self, List.count_singleton_self]
        omega
      · simp only [Function.update_of_ne same, List.count_singleton, beq_iff_eq, Ne.symm same, if_false]
        exact ih

/-! ## One key -/

/-- The clocks of all callers are within the lifetime of a key that any of them mints. -/
def Close (requests : Fin n → Request) : Prop :=
  ∀ i j, ∃ expiry, (requests i).now.add? Key.lifetime = some expiry ∧ (requests j).now < expiry

theorem Close.representable {requests : Fin n → Request} (close : Close requests) (i : Fin n) :
    (requests i).now.add? Key.lifetime ≠ none := by
  obtain ⟨expiry, added, -⟩ := close i i
  rw [added]
  exact Option.some_ne_none expiry

def Answers (requests : Fin n → Request) (current fresh : Option Key) (callers : Fin n → Caller) :
    Prop :=
  ∀ i outcome, callers i = .answered outcome → ∃ key, outcome = .ok key ∧
    key.isValid (requests i).now = true ∧ (fresh = some key ∨ current = some key)

theorem Answers.update {requests : Fin n → Request} {current fresh later : Option Key}
    {callers : Fin n → Caller} (answers : Answers requests current fresh callers)
    (grows : ∀ key, fresh = some key → later = some key) {i : Fin n} {caller : Caller}
    (own : ∀ outcome, caller = .answered outcome → ∃ key, outcome = .ok key ∧
      key.isValid (requests i).now = true ∧ (later = some key ∨ current = some key)) :
    Answers requests current later (Function.update callers i caller) := by
  intro j outcome done
  by_cases same : j = i
  · subst same
    rw [Function.update_self] at done
    exact own outcome done
  · rw [Function.update_of_ne same] at done
    obtain ⟨key, isOk, valid, source⟩ := answers j outcome done
    exact ⟨key, isOk, valid, source.imp_left (grows key)⟩

/-- A race for a key of this class, in which this key has been minted. -/
structure Raced (requests : Fin n → Request) (keyClass : KeyClass) (keeper : Keeper σ)
    (race : Race σ n) (fresh : Option Key) : Prop where
  kept : fresh = none → race.keeper = keeper
  rotated : ∀ key, fresh = some key → (∃ i, Rotated (requests i) key keeper race.keeper) ∧
    ∀ i, key.isValid (requests i).now = true
  answers : Answers requests (keeper.ring.current? keyClass) fresh race.callers

section Raced

variable {requests : Fin n → Request} {keyClass : KeyClass} {keeper : Keeper σ} {race : Race σ n}
  {fresh : Option Key}

theorem Raced.current (raced : Raced requests keyClass keeper race fresh)
    (sameClass : ∀ i, (requests i).keyClass = keyClass) :
    race.keeper.ring.current? keyClass = fresh.or (keeper.ring.current? keyClass) := by
  cases fresh with
  | none => rw [raced.kept rfl, Option.none_or]
  | some key =>
      obtain ⟨⟨i, rotated⟩, -⟩ := raced.rotated key rfl
      rw [rotated.ring, sameClass, KeyRing.current?_install, Option.some_or]

theorem turn_raced {Ready : σ → Prop} (accepts : AcceptsWrites Ready)
    (sameClass : ∀ i, (requests i).keyClass = keyClass) (close : Close requests)
    (given : ∀ i, (requests i).draw.Given) (raced : Raced requests keyClass keeper race fresh)
    (ready : Ready race.keeper.store) (i : Fin n) :
    ∃ later, Raced requests keyClass keeper (race.turn requests i) later ∧
      Ready (race.turn requests i).keeper.store := by
  have able : (requests i).Able := ⟨given i, close.representable i⟩
  have advanced := Request.advanced_of_accepts accepts ready able (race.callers i)
  have stillReady := advanced.ready accepts (given i) ready
  have current := raced.current sameClass
  rw [turn]
  generalize (requests i).advance race.keeper (race.callers i) = next at advanced stillReady
  generalize before : race.callers i = caller at advanced
  obtain ⟨answer, after⟩ := next
  cases advanced with
  | stays =>
      refine ⟨fresh, { raced with answers := raced.answers.update (fun _ => id) ?_ }, stillReady⟩
      intro outcome done
      exact raced.answers i outcome (before.trans done)
  | waits =>
      exact ⟨fresh, { raced with answers := raced.answers.update (fun _ => id) fun _ => nofun },
        stillReady⟩
  | @finds _ key valid =>
      refine ⟨fresh, { raced with answers := raced.answers.update (fun _ => id) ?_ }, stillReady⟩
      rintro _ ⟨⟩
      obtain ⟨isCurrent, valid⟩ := Request.valid?_eq_some_iff.1 valid
      rw [sameClass, current, Option.or_eq_some_iff] at isCurrent
      exact ⟨key, rfl, valid, isCurrent.imp_right And.right⟩
  | @rotates key _ invalid rotated =>
      -- A key that had been minted already would still be valid for this caller.
      have first : fresh = none := by
        cases fresh with
        | none => rfl
        | some other =>
            have valid := (raced.rotated other rfl).2 i
            rw [Option.some_or] at current
            rw [Request.isValid_of_valid?_eq_none invalid (by rw [sameClass]; exact current)] at valid
            cases valid
      have valid (j : Fin n) : key.isValid (requests j).now = true := by
        obtain ⟨expiry, added, before⟩ := close i j
        refine Key.isValid_of_mint rotated.minted ?_
        obtain ⟨-, expiresAt, -, again, rfl⟩ := Key.mint_eq_ok_iff.1 rotated.minted
        obtain rfl := Option.some.inj (added.symm.trans again)
        exact before
      rw [raced.kept first] at rotated
      refine ⟨some key, ⟨nofun, ?_, raced.answers.update ?_ ?_⟩, stillReady⟩
      · rintro _ ⟨⟩
        exact ⟨⟨i, rotated⟩, valid⟩
      · intro other isFresh
        rw [first] at isFresh
        cases isFresh
      · rintro _ ⟨⟩
        exact ⟨key, rfl, valid i, .inl rfl⟩

theorem run_raced {Ready : σ → Prop} (accepts : AcceptsWrites Ready)
    (sameClass : ∀ i, (requests i).keyClass = keyClass) (close : Close requests)
    (given : ∀ i, (requests i).draw.Given) (ready : Ready keeper.store) (schedule : List (Fin n)) :
    ∃ fresh, Raced requests keyClass keeper ((start keeper).run requests schedule) fresh ∧
      Ready ((start keeper).run requests schedule).keeper.store := by
  induction schedule using List.reverseRecOn with
  | nil => exact ⟨none, ⟨fun _ => rfl, fun _ => nofun, fun _ _ => nofun⟩, ready⟩
  | append_singleton schedule i ih =>
      obtain ⟨fresh, raced, stillReady⟩ := ih
      rw [run_concat]
      exact turn_raced accepts sameClass close given raced stillReady i

end Raced

end Race

/-! ## On a store that takes note -/

inductive Write where
  | saved (keyClass : KeyClass) (key : Key)
  | removed (id : Uuid)
  deriving DecidableEq

structure Recorded (σ : Type) where
  store : σ
  writes : List Write

namespace Recorded

variable {σ : Type}

def write (action : StoreM σ Unit) (what : Write) : StoreM (Recorded σ) Unit := fun recorded =>
  let (outcome, store) := perform action recorded.store
  (outcome, ⟨store, recorded.writes ++ [what]⟩)

theorem perform_write (action : StoreM σ Unit) (what : Write) (recorded : Recorded σ) :
    perform (write action what) recorded = ((perform action recorded.store).1,
      ⟨(perform action recorded.store).2, recorded.writes ++ [what]⟩) := rfl

variable [KeyStore σ]

instance : KeyStore (Recorded σ) where
  keys keyClass recorded := KeyStore.keys keyClass recorded.store
  key keyClass id recorded := KeyStore.key keyClass id recorded.store
  save keyClass key nonce := write (KeyStore.save keyClass key nonce) (.saved keyClass key)
  removeEncryptionKey id := write (KeyStore.removeEncryptionKey id) (.removed id)

theorem acceptsWrites {Ready : σ → Prop} (accepts : AcceptsWrites Ready) :
    AcceptsWrites fun recorded : Recorded σ => Ready recorded.store where
  saves {recorded} ready keyClass key length nonce := by
    obtain ⟨after, saved, stillReady⟩ := accepts.saves ready keyClass length nonce
    exact ⟨_, by rw [save, instKeyStore, perform_write, saved], stillReady⟩
  removes {recorded} ready gone := by
    obtain ⟨after, removed, stillReady⟩ := accepts.removes ready gone
    exact ⟨_, by rw [removeEncryptionKey, instKeyStore, perform_write, removed], stillReady⟩

end Recorded

namespace Race

open Keeper

variable {σ : Type} [KeyStore σ] {n : Nat}

/-- One key has been minted and saved, once, and none removed but the one that had to go. -/
structure MintedOnce (keyClass : KeyClass) (key : Key) (keeper after : Keeper (Recorded σ)) :
    Prop where
  ring : after.ring = keeper.ring.install key keyClass
  writes : after.store.writes = keeper.store.writes ++
    (((keeper.ring.evicted? keyClass).map (Write.removed ·.id)).toList ++ [.saved keyClass key])
  trail : after.trail = keeper.trail ++
    (((keeper.ring.evicted? keyClass).map (AuditEvent.evicted .encryption ·.id)).toList ++
      [.minted keyClass key])

theorem mintedOnce_of_rotated {request : Request} {key : Key} {keeper after : Keeper (Recorded σ)}
    (rotated : Rotated request key keeper after) :
    MintedOnce request.keyClass key keeper after where
  ring := rotated.ring
  writes := by
    obtain ⟨cleared, removed, saved⟩ := rotated.store
    have last : cleared.writes ++ [.saved request.keyClass key] = after.store.writes :=
      congrArg (·.2.writes) saved
    rw [← last, ← List.append_assoc]
    congr 1
    generalize keeper.ring.evicted? request.keyClass = previous at removed
    cases removed with
    | nothing => exact (List.append_nil _).symm
    | removed done => exact (congrArg (·.2.writes) done).symm
  trail := rotated.trail

/-- Let any number of callers ask for the current key of one class, at times that are within the
lifetime of a key of one another, and let them take their sections in any order, on a store that takes
its writes and with a random source that gives. A caller is answered after two turns, and always with
a key that is valid for it. At most one key is minted, and if the first current key is valid for none
of them, all get the same fresh one. The first current encryption key stays in its slot or becomes the
previous one. -/
theorem racing_callers_mint_once {Ready : σ → Prop} (accepts : AcceptsWrites Ready)
    {keyClass : KeyClass} {requests : Fin n → Request}
    (sameClass : ∀ i, (requests i).keyClass = keyClass) (close : Close requests)
    (given : ∀ i, (requests i).draw.Given) {keeper : Keeper (Recorded σ)}
    (ready : Ready keeper.store.store) (schedule : List (Fin n)) {race : Race (Recorded σ) n}
    (isRace : race = (start keeper).run requests schedule) :
    (∀ i, 2 ≤ schedule.count i → ∃ outcome, race.callers i = .answered outcome) ∧
    (∀ i outcome, race.callers i = .answered outcome →
      ∃ key, outcome = .ok key ∧ key.isValid (requests i).now = true) ∧
    (race.keeper = keeper ∨ ∃ key, MintedOnce keyClass key keeper race.keeper) ∧
    ((∀ i current, keeper.ring.current? keyClass = some current →
        current.isValid (requests i).now = false) →
      (∃ i outcome, race.callers i = .answered outcome) →
        ∃ key, MintedOnce keyClass key keeper race.keeper ∧
          ∀ i outcome, race.callers i = .answered outcome → outcome = .ok key) ∧
    ∀ key, keeper.ring.encryption.current = some key → race.keeper.ring.Slotted key := by
  subst isRace
  obtain ⟨fresh, raced, -⟩ :=
    run_raced (Recorded.acceptsWrites accepts) sameClass close given ready schedule
  have once (key : Key) (isFresh : fresh = some key) :
      MintedOnce keyClass key keeper ((start keeper).run requests schedule).keeper := by
    obtain ⟨⟨i, rotated⟩, -⟩ := raced.rotated key isFresh
    exact sameClass i ▸ mintedOnce_of_rotated rotated
  refine ⟨fun i twice => ?_, fun i outcome done => ?_, ?_, ?_, fun key current => ?_⟩
  · apply Caller.answered_of_left
    have left := left_run requests keeper schedule i
    omega
  · obtain ⟨key, isOk, valid, -⟩ := raced.answers i outcome done
    exact ⟨key, isOk, valid⟩
  · cases fresh with
    | none => exact .inl (raced.kept rfl)
    | some key => exact .inr ⟨key, once key rfl⟩
  · rintro invalid ⟨i, outcome, done⟩
    -- Nobody is answered with the first key, which is valid for none of them.
    have isFresh (j : Fin n) (outcome : Except Error Key)
        (done : ((start keeper).run requests schedule).callers j = .answered outcome) :
        ∃ key, outcome = .ok key ∧ fresh = some key := by
      obtain ⟨key, isOk, valid, source⟩ := raced.answers j outcome done
      refine ⟨key, isOk, source.resolve_right fun isFirst => ?_⟩
      rw [invalid j key isFirst] at valid
      cases valid
    obtain ⟨key, -, minted⟩ := isFresh i outcome done
    refine ⟨key, once key minted, fun j outcome done => ?_⟩
    obtain ⟨other, isOk, again⟩ := isFresh j outcome done
    rw [isOk, Option.some.inj (minted.symm.trans again)]
  · cases fresh with
    | none =>
        rw [raced.kept rfl]
        exact .inl current
    | some other =>
        rw [(once other rfl).ring]
        cases keyClass with
        | signing => exact .inl current
        | encryption => exact .inr current

def sampleRing : Keeper (Recorded MemoryStore) :=
  opened ⟨⟨[], [sampleKey 8 1, sampleKey 9 2], false, false⟩, []⟩

def sampleCallers : Fin 2 → Request
  | 0 => ⟨.encryption, sampleDay 1000, sampleDraw 1⟩
  | 1 => ⟨.encryption, sampleDay 1001, sampleDraw 2⟩

theorem two_callers_get_one_key :
    ∃ key, MintedOnce .encryption key sampleRing
        ((start sampleRing).run sampleCallers [0, 1, 1, 0]).keeper ∧
      ∀ i, ((start sampleRing).run sampleCallers [0, 1, 1, 0]).callers i = .answered (.ok key) := by
  have sameClass : ∀ i, (sampleCallers i).keyClass = .encryption := by decide
  have inTime : ∀ i j, ((sampleCallers i).now.add? Key.lifetime).any
      (fun expiry => decide ((sampleCallers j).now < expiry)) = true := by decide
  have close : Close sampleCallers := by
    intro i j
    obtain ⟨added, before⟩ := (Option.any_eq_true_iff_get _ _).1 (inTime i j)
    exact ⟨_, (Option.some_get added).symm, of_decide_eq_true before⟩
  have invalid (i : Fin 2) (current : Key)
      (isCurrent : sampleRing.ring.current? .encryption = some current) :
      current.isValid (sampleCallers i).now = false := by
    obtain rfl : sampleKey 9 2 = current := Option.some.inj isCurrent
    revert i
    decide
  have given : ∀ i, (sampleCallers i).draw.Given
    | 0 => given_sampleDraw 1
    | 1 => given_sampleDraw 2
  obtain ⟨done, -, -, once, -⟩ := racing_callers_mint_once MemoryStore.acceptsWrites sameClass close
    given ⟨rfl, rfl⟩ [0, 1, 1, 0] (rfl : (start sampleRing).run sampleCallers _ = _)
  have answered (i : Fin 2) := done i (by revert i; decide)
  obtain ⟨key, minted, same⟩ := once invalid ⟨0, answered 0⟩
  refine ⟨key, minted, fun i => ?_⟩
  obtain ⟨outcome, isAnswer⟩ := answered i
  rw [isAnswer, same i outcome isAnswer]

end Race

end Bearer
