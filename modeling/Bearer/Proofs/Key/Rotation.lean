import Bearer.Proofs.Key.Expiry
/-!
# What asking for a key can do

`SigningStep` and `EncryptionStep` list all that can come of asking the ring for a key, with the
store and the trail that are left. `currentSigningKey_step` and `currentEncryptionKey_step` say that
there is no more.
-/

namespace Bearer.Keeper

variable {σ : Type}

/-! ## Steps of a rotation -/

theorem perform_modifyRing (change : KeyRing → KeyRing) (keeper : Keeper σ) :
    perform (modifyRing change) keeper = (.ok (), { keeper with ring := change keeper.ring }) := rfl

def written (keeper : Keeper σ) (store : σ) (events : List AuditEvent) : Keeper σ :=
  { keeper with store, trail := keeper.trail ++ events }

theorem perform_failRotation {α : Type} (keyClass : KeyClass) (error : Error) (keeper : Keeper σ) :
    perform (failRotation keyClass error : KeeperM σ α) keeper =
      (.error error, keeper.written keeper.store [.rotationFailed keyClass error.message]) := rfl

abbrev undrawn (reason : String) : Error := .generation (CryptoError.random reason).message

section Mint

variable {keyClass : KeyClass} {now : Instant} {draw : KeyDraw} {keeper : Keeper σ}

theorem perform_mint_ok {key : Key} (minted : Key.mint now draw = .ok key) :
    perform (mint keyClass now draw) keeper = (.ok key, keeper) := by
  rw [mint, minted]
  rfl

theorem perform_mint_undrawn {reason : String} (refused : draw.secret = .error reason) :
    perform (mint keyClass now draw) keeper = (.error (undrawn reason),
      keeper.written keeper.store [.rotationFailed keyClass (undrawn reason).message]) := by
  rw [mint, Key.mint_eq_random_iff.2 refused]
  exact perform_failRotation keyClass (undrawn reason) keeper

theorem perform_mint_calendarEnds (ends : Key.mint now draw = .error .calendarEnds) :
    perform (mint keyClass now draw) keeper = (.error .calendarEnds, keeper) := by
  rw [mint, ends]
  rfl

theorem mint_bind_cases {next : Key → KeeperM σ Key} {outcome : Except Error Key} {after : Keeper σ}
    (done : perform (mint keyClass now draw >>= next) keeper = (outcome, after)) :
    (∃ reason, draw.secret = .error reason ∧ outcome = .error (undrawn reason) ∧
      after = keeper.written keeper.store [.rotationFailed keyClass (undrawn reason).message]) ∨
    (Key.mint now draw = .error .calendarEnds ∧ outcome = .error .calendarEnds ∧ after = keeper) ∨
    ∃ key, Key.mint now draw = .ok key ∧ perform (next key) keeper = (outcome, after) := by
  rcases minted : Key.mint now draw with (reason | _) | key
  · have refused := Key.mint_eq_random_iff.1 minted
    rw [perform_bind_error (perform_mint_undrawn refused)] at done
    obtain ⟨rfl, rfl⟩ := Prod.mk.inj done
    exact .inl ⟨reason, refused, rfl, rfl⟩
  · rw [perform_bind_error (perform_mint_calendarEnds minted)] at done
    obtain ⟨rfl, rfl⟩ := Prod.mk.inj done
    exact .inr (.inl ⟨rfl, rfl, rfl⟩)
  · rw [perform_bind_ok (perform_mint_ok minted)] at done
    exact .inr (.inr ⟨key, rfl, done⟩)

end Mint

section OnStore

variable {keyClass : KeyClass} {task : StoreTask} {action : StoreM σ Unit} {keeper : Keeper σ}
  {store : σ}

theorem perform_onStore_ok (done : perform action keeper.store = (.ok (), store)) :
    perform (onStore keyClass task action) keeper = (.ok (), { keeper with store }) := by
  have ran : action.run.run keeper.store = (.ok (), store) := done
  rw [onStore, perform_get_bind, ran]
  rfl

theorem perform_onStore_error {fault : StoreError}
    (failed : perform action keeper.store = (.error fault, store)) :
    perform (onStore keyClass task action) keeper = (.error (Error.store task fault),
      keeper.written store [.rotationFailed keyClass (Error.store task fault).message]) := by
  have ran : action.run.run keeper.store = (.error fault, store) := failed
  rw [onStore, perform_get_bind, ran]
  exact perform_failRotation keyClass (.store task fault) { keeper with store }

end OnStore

variable [KeyStore σ]

/-! ## Signing keys -/

/-- All that can come of asking for the signing key. -/
inductive SigningStep (keeper : Keeper σ) (now : Instant) (draw : KeyDraw) :
    Except Error Key → Keeper σ → Prop where
  | valid {key : Key} (current : keeper.ring.signing.current = some key)
      (valid : key.isValid now = true) : SigningStep keeper now draw (.ok key) keeper
  | undrawn {reason : String} (refused : draw.secret = .error reason) :
      SigningStep keeper now draw (.error (undrawn reason))
        (keeper.written keeper.store [.rotationFailed .signing (undrawn reason).message])
  | calendarEnds (ends : Key.mint now draw = .error .calendarEnds) :
      SigningStep keeper now draw (.error .calendarEnds) keeper
  | unsaved {key : Key} {store : σ} {fault : StoreError} (minted : Key.mint now draw = .ok key)
      (failed : perform (KeyStore.save .signing key draw.nonce) keeper.store =
        (.error fault, store)) :
      SigningStep keeper now draw (.error (.store (.saving true) fault))
        (keeper.written store [.rotationFailed .signing (Error.store (.saving true) fault).message])
  | minted {key : Key} {store : σ} (minted : Key.mint now draw = .ok key)
      (saved : perform (KeyStore.save .signing key draw.nonce) keeper.store = (.ok (), store)) :
      SigningStep keeper now draw (.ok key)
        ⟨keeper.ring.installSigningKey key, store, keeper.trail ++ [.minted .signing key]⟩

theorem validSigningKey?_eq_some {ring : KeyRing} {now : Instant} {key : Key}
    (found : ring.validSigningKey? now = some key) :
    ring.signing.current = some key ∧ key.isValid now = true := Option.filter_eq_some_iff.1 found

theorem rotateSigningKey_step {keeper after : Keeper σ} {now : Instant} {draw : KeyDraw}
    {outcome : Except Error Key}
    (done : perform (rotateSigningKey now draw) keeper = (outcome, after)) :
    SigningStep keeper now draw outcome after := by
  rw [rotateSigningKey, perform_get_bind] at done
  cases found : keeper.ring.validSigningKey? now with
  | some key =>
      simp only [found, perform_pure] at done
      obtain ⟨rfl, rfl⟩ := Prod.mk.inj done
      obtain ⟨current, valid⟩ := validSigningKey?_eq_some found
      exact .valid current valid
  | none =>
      simp only [found] at done
      obtain ⟨reason, refused, rfl, rfl⟩ | ⟨ends, rfl, rfl⟩ | ⟨key, minted, done⟩ :=
        mint_bind_cases done
      · exact .undrawn refused
      · exact .calendarEnds ends
      · rcases saved : perform (KeyStore.save .signing key draw.nonce) keeper.store with
          ⟨fault | _, store⟩
        · rw [perform_bind_error (perform_onStore_error saved)] at done
          obtain ⟨rfl, rfl⟩ := Prod.mk.inj done
          exact .unsaved minted saved
        · rw [perform_bind_ok (perform_onStore_ok saved)] at done
          obtain ⟨rfl, rfl⟩ := Prod.mk.inj done
          exact .minted minted saved

/-- What is looked up again under the lock is what was found before it, as long as nobody comes
between. -/
theorem perform_currentSigningKey (now : Instant) (draw : KeyDraw) (keeper : Keeper σ) :
    perform (currentSigningKey now draw) keeper = perform (rotateSigningKey now draw) keeper := by
  rw [currentSigningKey, perform_get_bind]
  cases found : keeper.ring.validSigningKey? now with
  | some key => rw [rotateSigningKey, perform_get_bind, found]
  | none => rfl

theorem currentSigningKey_step {keeper after : Keeper σ} {now : Instant} {draw : KeyDraw}
    {outcome : Except Error Key}
    (done : perform (currentSigningKey now draw) keeper = (outcome, after)) :
    SigningStep keeper now draw outcome after :=
  rotateSigningKey_step ((perform_currentSigningKey now draw keeper).symm.trans done)

/-! ## Encryption keys -/

/-- The store once the previous key is out of it, if there was one. -/
inductive Cleared (store : σ) : Option Key → σ → Prop where
  | nothing : Cleared store none store
  | removed {previous : Key} {cleared : σ}
      (done : perform (KeyStore.removeEncryptionKey previous.id) store = (.ok (), cleared)) :
      Cleared store (some previous) cleared

def rotationEvents (previous : Option Key) (key : Key) : List AuditEvent :=
  (previous.map fun previous => AuditEvent.evicted .encryption previous.id).toList ++
    [.minted .encryption key]

/-- All that can come of asking for the encryption key. -/
inductive EncryptionStep (keeper : Keeper σ) (now : Instant) (draw : KeyDraw) :
    Except Error Key → Keeper σ → Prop where
  | valid {key : Key} (current : keeper.ring.encryption.current = some key)
      (valid : key.isValid now = true) : EncryptionStep keeper now draw (.ok key) keeper
  | undrawn {reason : String} (refused : draw.secret = .error reason) :
      EncryptionStep keeper now draw (.error (undrawn reason))
        (keeper.written keeper.store [.rotationFailed .encryption (undrawn reason).message])
  | calendarEnds (ends : Key.mint now draw = .error .calendarEnds) :
      EncryptionStep keeper now draw (.error .calendarEnds) keeper
  | unremoved {key previous : Key} {store : σ} {fault : StoreError}
      (minted : Key.mint now draw = .ok key)
      (held : keeper.ring.encryption.previous = some previous)
      (failed : perform (KeyStore.removeEncryptionKey previous.id) keeper.store =
        (.error fault, store)) :
      EncryptionStep keeper now draw (.error (.store .removingPrevious fault))
        (keeper.written store
          [.rotationFailed .encryption (Error.store .removingPrevious fault).message])
  | unsaved {key : Key} {cleared store : σ} {fault : StoreError}
      (minted : Key.mint now draw = .ok key)
      (removed : Cleared keeper.store keeper.ring.encryption.previous cleared)
      (failed : perform (KeyStore.save .encryption key draw.nonce) cleared = (.error fault, store)) :
      EncryptionStep keeper now draw (.error (.store (.saving false) fault))
        (keeper.written store
          [.rotationFailed .encryption (Error.store (.saving false) fault).message])
  | minted {key : Key} {cleared store : σ} (minted : Key.mint now draw = .ok key)
      (invalid : ∀ current, keeper.ring.encryption.current = some current →
        current.isValid now = false)
      (removed : Cleared keeper.store keeper.ring.encryption.previous cleared)
      (saved : perform (KeyStore.save .encryption key draw.nonce) cleared = (.ok (), store)) :
      EncryptionStep keeper now draw (.ok key)
        ⟨keeper.ring.installEncryptionKey key, store,
          keeper.trail ++ rotationEvents keeper.ring.encryption.previous key⟩

theorem validEncryptionKey?_eq_some {ring : KeyRing} {now : Instant} {key : Key}
    (found : ring.validEncryptionKey? now = some key) :
    ring.encryption.current = some key ∧ key.isValid now = true := Option.filter_eq_some_iff.1 found

theorem validEncryptionKey?_eq_none {ring : KeyRing} {now : Instant}
    (absent : ring.validEncryptionKey? now = none) {current : Key}
    (held : ring.encryption.current = some current) : current.isValid now = false := by
  rw [KeyRing.validEncryptionKey?, held] at absent
  cases valid : current.isValid now with
  | false => rfl
  | true => simp [valid] at absent

theorem save_step {keeper after : Keeper σ} {now : Instant} {draw : KeyDraw} {key : Key}
    {cleared : σ} {outcome : Except Error Key} (minted : Key.mint now draw = .ok key)
    (invalid : ∀ current, keeper.ring.encryption.current = some current →
      current.isValid now = false)
    (removed : Cleared keeper.store keeper.ring.encryption.previous cleared)
    (done : perform (do
      onStore .encryption (.saving false) (KeyStore.save .encryption key draw.nonce)
      modifyRing (·.installEncryptionKey key)
      match keeper.ring.encryption.previous.map Key.id with
      | some id => emit (.evicted .encryption id)
      | none => pure ()
      emit (.minted .encryption key)
      return key) { keeper with store := cleared } = (outcome, after)) :
    EncryptionStep keeper now draw outcome after := by
  rcases saved : perform (KeyStore.save .encryption key draw.nonce) cleared with ⟨fault | _, store⟩
  · rw [perform_bind_error (perform_onStore_error saved)] at done
    obtain ⟨rfl, rfl⟩ := Prod.mk.inj done
    exact .unsaved minted removed saved
  · rw [perform_bind_ok (perform_onStore_ok saved), perform_bind, perform_modifyRing] at done
    have step := EncryptionStep.minted minted invalid removed saved
    cases held : keeper.ring.encryption.previous with
    | none =>
        rw [held] at step
        simp only [held, Option.map_none] at done
        obtain ⟨rfl, rfl⟩ := Prod.mk.inj done
        exact step
    | some previous =>
        rw [held, rotationEvents, Option.map_some, Option.toList_some, ← List.append_assoc] at step
        simp only [held, Option.map_some] at done
        obtain ⟨rfl, rfl⟩ := Prod.mk.inj done
        exact step

theorem rotateEncryptionKey_step {keeper after : Keeper σ} {now : Instant} {draw : KeyDraw}
    {outcome : Except Error Key}
    (done : perform (rotateEncryptionKey now draw) keeper = (outcome, after)) :
    EncryptionStep keeper now draw outcome after := by
  rw [rotateEncryptionKey, perform_get_bind] at done
  cases found : keeper.ring.validEncryptionKey? now with
  | some key =>
      simp only [found, perform_pure] at done
      obtain ⟨rfl, rfl⟩ := Prod.mk.inj done
      obtain ⟨current, valid⟩ := validEncryptionKey?_eq_some found
      exact .valid current valid
  | none =>
      have invalid (current : Key) (held : keeper.ring.encryption.current = some current) :=
        validEncryptionKey?_eq_none found held
      simp only [found] at done
      obtain ⟨reason, refused, rfl, rfl⟩ | ⟨ends, rfl, rfl⟩ | ⟨key, minted, done⟩ :=
        mint_bind_cases done
      · exact .undrawn refused
      · exact .calendarEnds ends
      · rw [perform_get_bind] at done
        cases held : keeper.ring.encryption.previous with
        | none =>
            have cleared : Cleared keeper.store keeper.ring.encryption.previous keeper.store := by
              rw [held]
              exact .nothing
            refine save_step minted invalid cleared ?_
            simp only [held, Option.map_none] at done ⊢
            exact done
        | some previous =>
            simp only [held, Option.map_some] at done
            rcases removed : perform (KeyStore.removeEncryptionKey previous.id) keeper.store with
              ⟨fault | _, store⟩
            · rw [perform_bind_error (perform_onStore_error removed)] at done
              obtain ⟨rfl, rfl⟩ := Prod.mk.inj done
              exact .unremoved minted held removed
            · have cleared : Cleared keeper.store keeper.ring.encryption.previous store := by
                rw [held]
                exact .removed removed
              refine save_step minted invalid cleared ?_
              rw [perform_bind_ok (perform_onStore_ok removed)] at done
              simp only [held, Option.map_some]
              exact done

theorem perform_currentEncryptionKey (now : Instant) (draw : KeyDraw) (keeper : Keeper σ) :
    perform (currentEncryptionKey now draw) keeper = perform (rotateEncryptionKey now draw) keeper := by
  rw [currentEncryptionKey, perform_get_bind]
  cases found : keeper.ring.validEncryptionKey? now with
  | some key => rw [rotateEncryptionKey, perform_get_bind, found]
  | none => rfl

theorem currentEncryptionKey_step {keeper after : Keeper σ} {now : Instant} {draw : KeyDraw}
    {outcome : Except Error Key}
    (done : perform (currentEncryptionKey now draw) keeper = (outcome, after)) :
    EncryptionStep keeper now draw outcome after :=
  rotateEncryptionKey_step ((perform_currentEncryptionKey now draw keeper).symm.trans done)

end Bearer.Keeper
