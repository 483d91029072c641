import Bearer.Proofs.Key.Expiry
import Bearer.Proofs.Run

namespace Bearer

open KeyStore

structure Request where
  keyClass : KeyClass
  now : Instant
  draw : KeyDraw

namespace KeyRing

def current? (ring : KeyRing) : KeyClass → Option Key
  | .signing => ring.signing.current
  | .encryption => ring.encryption.current

def install (ring : KeyRing) (key : Key) : KeyClass → KeyRing
  | .signing => ring.installSigningKey key
  | .encryption => ring.installEncryptionKey key

def Slotted (ring : KeyRing) (key : Key) : Prop :=
  ring.encryption.current = some key ∨ ring.encryption.previous = some key

instance (ring : KeyRing) (key : Key) : Decidable (ring.Slotted key) :=
  inferInstanceAs (Decidable (_ ∨ _))

@[simp] theorem current?_install (ring : KeyRing) (key : Key) (keyClass : KeyClass) :
    (ring.install key keyClass).current? keyClass = some key := by
  cases keyClass <;> rfl

end KeyRing

namespace Request

def valid? (request : Request) (ring : KeyRing) : Option Key :=
  match request.keyClass with
  | .signing => ring.validSigningKey? request.now
  | .encryption => ring.validEncryptionKey? request.now

theorem valid?_eq (request : Request) (ring : KeyRing) :
    request.valid? ring = (ring.current? request.keyClass).filter (·.isValid request.now) := by
  unfold valid?
  cases request.keyClass <;> rfl

theorem valid?_eq_some_iff {request : Request} {ring : KeyRing} {key : Key} :
    request.valid? ring = some key ↔
      ring.current? request.keyClass = some key ∧ key.isValid request.now = true := by
  rw [valid?_eq, Option.filter_eq_some_iff]

theorem isValid_of_valid?_eq_none {request : Request} {ring : KeyRing}
    (absent : request.valid? ring = none) {current : Key}
    (there : ring.current? request.keyClass = some current) : current.isValid request.now = false := by
  rw [valid?_eq, there, Option.filter_some] at absent
  simpa using absent

variable {σ : Type} [KeyStore σ]

def rotate (request : Request) : KeeperM σ Key :=
  match request.keyClass with
  | .signing => Keeper.rotateSigningKey request.now request.draw
  | .encryption => Keeper.rotateEncryptionKey request.now request.draw

def ask (request : Request) : KeeperM σ Key :=
  match request.keyClass with
  | .signing => Keeper.currentSigningKey request.now request.draw
  | .encryption => Keeper.currentEncryptionKey request.now request.draw

theorem ask_eq (request : Request) : (request.ask : KeeperM σ Key) = (do
    match request.valid? (← get).ring with
    | some key => return key
    | none => request.rotate) := by
  unfold ask valid? rotate
  cases request.keyClass <;> rfl

theorem rotate_of_valid {request : Request} {keeper : Keeper σ} {key : Key}
    (valid : request.valid? keeper.ring = some key) :
    perform request.rotate keeper = (.ok key, keeper) := by
  unfold valid? at valid
  unfold rotate
  cases keyClass : request.keyClass with
  | signing =>
      simp only [keyClass] at valid
      simp only [Keeper.rotateSigningKey, perform_get_bind, valid, perform_pure]
  | encryption =>
      simp only [keyClass] at valid
      simp only [Keeper.rotateEncryptionKey, perform_get_bind, valid, perform_pure]

theorem ask_of_valid {request : Request} {keeper : Keeper σ} {key : Key}
    (valid : request.valid? keeper.ring = some key) :
    perform request.ask keeper = (.ok key, keeper) := by
  simp only [ask_eq, perform_get_bind, valid, perform_pure]

theorem ask_of_invalid {request : Request} {keeper : Keeper σ}
    (invalid : request.valid? keeper.ring = none) :
    perform request.ask keeper = perform request.rotate keeper := by
  simp only [ask_eq, perform_get_bind, invalid]

theorem ask_step {request : Request} {keeper after : Keeper σ} {outcome : Except Error Key}
    (done : perform request.ask keeper = (outcome, after)) :
    (request.keyClass = .signing ∧
      Keeper.SigningStep keeper request.now request.draw outcome after) ∨
    request.keyClass = .encryption ∧
      Keeper.EncryptionStep keeper request.now request.draw outcome after := by
  unfold ask at done
  cases keyClass : request.keyClass with
  | signing =>
      rw [keyClass] at done
      exact .inl ⟨rfl, Keeper.currentSigningKey_step done⟩
  | encryption =>
      rw [keyClass] at done
      exact .inr ⟨rfl, Keeper.currentEncryptionKey_step done⟩

/-! ## Answers -/

theorem current_of_ask {request : Request} {keeper after : Keeper σ} {key : Key}
    (done : perform request.ask keeper = (.ok key, after)) :
    key.isValid request.now = true ∧ after.ring.current? request.keyClass = some key := by
  rcases ask_step done with ⟨keyClass, step⟩ | ⟨keyClass, step⟩
  · rw [keyClass]
    cases step with
    | valid current valid => exact ⟨valid, current⟩
    | minted minted _ => exact ⟨Key.isValid_of_mint minted (Key.of_mint minted).2, rfl⟩
  · rw [keyClass]
    cases step with
    | valid current valid => exact ⟨valid, current⟩
    | minted minted _ _ _ => exact ⟨Key.isValid_of_mint minted (Key.of_mint minted).2, rfl⟩

theorem ring_of_ask_error {request : Request} {keeper after : Keeper σ} {fault : Error}
    (done : perform request.ask keeper = (.error fault, after)) : after.ring = keeper.ring := by
  rcases ask_step done with ⟨-, step⟩ | ⟨-, step⟩
  · cases step <;> rfl
  · cases step <;> rfl

end Request

/-! ## Runs of a ring -/

inductive Operation where
  | ask (request : Request)
  | reload

namespace Keeper

variable {σ : Type} [KeyStore σ]

def opened (store : σ) : Keeper σ := reload ⟨.empty, store, []⟩

theorem store_opened (store : σ) : (opened store).store = store := by
  unfold opened reload
  split <;> rfl

def operate (keeper : Keeper σ) : Operation → Keeper σ
  | .ask request => (perform request.ask keeper).2
  | .reload => keeper.reload

def run (keeper : Keeper σ) (operations : List Operation) : Keeper σ :=
  operations.foldl operate keeper

@[simp] theorem run_nil (keeper : Keeper σ) : keeper.run [] = keeper := rfl

theorem run_append (keeper : Keeper σ) (first second : List Operation) :
    keeper.run (first ++ second) = (keeper.run first).run second := List.foldl_append

theorem run_concat (keeper : Keeper σ) (operations : List Operation) (operation : Operation) :
    keeper.run (operations ++ [operation]) = (keeper.run operations).operate operation :=
  run_append keeper operations [operation]

end Keeper

end Bearer
