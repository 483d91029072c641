import Bearer.Proofs.Key.Consistency
/-!
# Restarts

* `latest?_eq`: of signing keys that expire at different times, a ring takes one as the current key,
  however the store lists them.
* `Newest`: the current signing key expires after all others. A key is minted only when the current
  one has expired, whatever the clock did before (`run_newest`).
* `restart_transparent`: a ring that is loaded from the store of another has the same keys in the same
  places.
-/

namespace Bearer

open KeyStore KeyRing

namespace KeyRing

/-! ## The latest key -/

theorem le_of_foldl {choose : Option Key → Key → Option Key}
    (later : ∀ best key, ∃ found, choose best key = some found ∧ key.expiresAt ≤ found.expiresAt ∧
      ∀ held, best = some held → held.expiresAt ≤ found.expiresAt)
    {keys : List Key} {best : Option Key} {key : Key}
    (known : key ∈ keys ∨ ∃ held, best = some held ∧ key.expiresAt ≤ held.expiresAt) :
    ∃ found, keys.foldl choose best = some found ∧ key.expiresAt ≤ found.expiresAt := by
  induction keys generalizing best with
  | nil => exact known.resolve_left List.not_mem_nil
  | cons first keys ih =>
      obtain ⟨found, isFound, notLater, keeps⟩ := later best first
      apply ih
      rcases known with inside | ⟨held, isHeld, before⟩
      · rcases List.mem_cons.1 inside with rfl | inside
        · exact .inr ⟨found, isFound, notLater⟩
        · exact .inl inside
      · exact .inr ⟨found, isFound, Instant.le_trans before (keeps held isHeld)⟩

theorem le_latest? {keys : List Key} {key : Key} (inside : key ∈ keys) :
    ∃ found, latest? keys = some found ∧ key.expiresAt ≤ found.expiresAt := by
  refine le_of_foldl (fun best key => ?_) (.inl inside)
  cases best with
  | none => exact ⟨key, rfl, Instant.le_refl key.expiresAt, fun _ => nofun⟩
  | some held =>
      by_cases before : key.expiresAt < held.expiresAt
      · refine ⟨held, if_pos before, Instant.le_of_lt before, ?_⟩
        rintro _ ⟨⟩
        exact Instant.le_refl _
      · refine ⟨key, if_neg before, Instant.le_refl _, ?_⟩
        rintro _ ⟨⟩
        exact before

theorem latest?_eq {keys : List Key} {best : Key} (inside : best ∈ keys)
    (latest : ∀ key ∈ keys, key = best ∨ key.expiresAt < best.expiresAt) :
    latest? keys = some best := by
  obtain ⟨found, isLatest, notLater⟩ := le_latest? inside
  rcases latest found (Keeper.mem_of_latest? isLatest) with rfl | before
  · exact isLatest
  · exact absurd (Instant.lt_of_le_of_lt notLater before) (Instant.lt_irrefl _)

/-! ## Signing keys in order -/

structure Newest (ring : KeyRing) : Prop where
  distinct : ring.signing.all.Distinct
  fit : ∀ key ∈ ring.signing.all, key.id.isNil = false ∧ key.secret ≠ []
  known : ∀ key, ring.signing.current = some key → key ∈ ring.signing.all
  latest : ∀ key ∈ ring.signing.all, ∃ current, ring.signing.current = some current ∧
    (key = current ∨ key.expiresAt < current.expiresAt)

theorem Newest.latest?_eq {ring : KeyRing} (newest : ring.Newest) {signing : KeyTable}
    (perm : signing.Perm ring.signing.all) : latest? signing = ring.signing.current := by
  cases current : ring.signing.current with
  | none =>
      cases signing with
      | nil => rfl
      | cons key signing =>
          obtain ⟨other, isCurrent, -⟩ := newest.latest key (perm.mem_iff.1 List.mem_cons_self)
          rw [current] at isCurrent
          cases isCurrent
  | some best =>
      refine KeyRing.latest?_eq (perm.mem_iff.2 (newest.known best current)) fun key inside => ?_
      obtain ⟨other, isCurrent, latest⟩ := newest.latest key (perm.mem_iff.1 inside)
      obtain rfl := Option.some.inj (current.symm.trans isCurrent)
      exact latest

theorem Newest.reordered {ring : KeyRing} (newest : ring.Newest) {signing : KeyTable}
    (perm : signing.Perm ring.signing.all) (encryption : KeyTable) :
    (ofTables signing encryption).Newest where
  distinct := perm.symm.pairwise newest.distinct fun apart => Ne.symm apart
  fit key inside := newest.fit key (perm.mem_iff.1 inside)
  known key current :=
    perm.mem_iff.2 (newest.known key ((newest.latest?_eq perm).symm.trans current))
  latest key inside := by
    rw [show (ofTables signing encryption).signing.current = ring.signing.current from
      newest.latest?_eq perm]
    exact newest.latest key (perm.mem_iff.1 inside)

theorem newest_ofTables {signing : KeyTable} (distinct : signing.Distinct)
    (fit : ∀ key ∈ signing, key.id.isNil = false ∧ key.secret ≠ [])
    (apart : ∀ key ∈ signing, ∀ other ∈ signing, key.expiresAt = other.expiresAt → key = other)
    (encryption : KeyTable) : (ofTables signing encryption).Newest where
  distinct
  fit
  known key current := Keeper.mem_of_latest? current
  latest key inside := by
    obtain ⟨found, isLatest, notLater⟩ := le_latest? inside
    refine ⟨found, isLatest, ?_⟩
    by_cases together : key.expiresAt = found.expiresAt
    · exact .inl (apart key inside found (Keeper.mem_of_latest? isLatest) together)
    · exact .inr (Instant.lt_of_le_of_ne notLater together)

theorem Newest.install {ring : KeyRing} {now : Instant} {draw : KeyDraw} {key : Key}
    (newest : ring.Newest) (minted : Key.mint now draw = .ok key)
    (invalid : ∀ current, ring.signing.current = some current → current.isValid now = false) :
    (ring.installSigningKey key).Newest where
  distinct := newest.distinct.insert key
  fit other inside := by
    rcases List.mem_append.1 inside with inside | inside
    · exact newest.fit other (List.mem_filter.1 inside).1
    · rw [List.mem_singleton.1 inside]
      exact Key.fit_of_mint minted
  known other current := by
    obtain rfl := Option.some.inj current
    exact List.mem_append_right _ (List.mem_singleton_self _)
  latest other inside := by
    refine ⟨key, rfl, ?_⟩
    rcases List.mem_append.1 inside with inside | inside
    · right
      obtain ⟨current, isCurrent, before⟩ := newest.latest other (List.mem_filter.1 inside).1
      obtain ⟨named, secret⟩ := newest.fit current (newest.known current isCurrent)
      have expired := Key.le_of_isValid_eq_false named secret (invalid current isCurrent)
      have notLater : other.expiresAt ≤ current.expiresAt := by
        rcases before with rfl | before
        · exact Instant.le_refl _
        · exact Instant.le_of_lt before
      exact Instant.lt_of_le_of_lt (Instant.le_trans notLater expired) (Key.of_mint minted).2
    · exact .inl (List.mem_singleton.1 inside)

end KeyRing

namespace Keeper

variable {σ : Type} [KeyStore σ] [LawfulKeyStore σ]

/-! ## Runs -/

theorem operate_newest {keeper : Keeper σ} (coherent : keeper.Coherent)
    (newest : keeper.ring.Newest) (operation : Operation) :
    (keeper.operate operation).ring.Newest := by
  cases operation with
  | ask request =>
      rcases done : perform request.ask keeper with ⟨outcome, after⟩
      rw [operate, done]
      cases found : request.valid? keeper.ring with
      | some key =>
          rw [Request.ask_of_valid found] at done
          rw [← congrArg Prod.snd done]
          exact newest
      | none =>
          rcases Request.ask_step done with ⟨keyClass, step⟩ | ⟨-, step⟩
          · cases step with
            | minted minted _ =>
                refine newest.install minted fun current there => ?_
                exact Request.isValid_of_valid?_eq_none found (by rw [keyClass]; exact there)
            | _ => exact newest
          · -- The signing slot does not change.
            cases step <;> exact { newest with }
  | reload =>
      have perm : (table keeper.store .signing).Perm keeper.ring.signing.all :=
        (LawfulKeyStore.readable coherent.sound .signing).2.perm newest.distinct fun id =>
          (coherent.agree id).symm
      rw [operate, reload_of_sound coherent.sound]
      exact newest.reordered perm _

theorem run_newest {keeper : Keeper σ} (coherent : keeper.Coherent) (newest : keeper.ring.Newest)
    (operations : List Operation) : (keeper.run operations).ring.Newest := by
  induction operations using List.reverseRecOn with
  | nil => exact newest
  | append_singleton operations operation ih =>
      rw [run_concat]
      exact operate_newest (run_coherent_extends coherent operations).1 ih operation

/-! ## Order -/

structure Chronological (keeper : Keeper σ) : Prop where
  slots : ∀ current previous, keeper.ring.encryption.current = some current →
    keeper.ring.encryption.previous = some previous → previous.expiresAt < current.expiresAt
  spare : ∀ key, keeper.Spare key → ∃ previous, keeper.ring.encryption.previous = some previous ∧
    key.expiresAt < previous.expiresAt
  signing : ∀ key ∈ keeper.ring.signing.all, ∃ current, keeper.ring.signing.current = some current ∧
    (key = current ∨ key.expiresAt < current.expiresAt)

theorem Stock.chronological {origin : Store} {keeper : Keeper σ} {keys : KeyTable}
    {lost : Key → Prop} (stock : Stock origin keeper keys lost) (inOrder : InOrder keys)
    (newest : keeper.ring.Newest) : keeper.Chronological where
  slots current previous isCurrent isPrevious :=
    inOrder.descending.lt Nat.zero_lt_one (stock.current.symm.trans isCurrent)
      (stock.previous.symm.trans isPrevious)
  spare key isSpare := by
    obtain ⟨place, there⟩ := List.mem_iff_getElem?.1 (stock.spare_iff.1 isSpare)
    rw [List.getElem?_drop] at there
    have long : 1 < keys.length := by
      have inside := (List.getElem?_eq_some_iff.1 there).1
      omega
    refine ⟨keys[1], stock.previous.trans (List.getElem?_eq_getElem long), ?_⟩
    exact inOrder.descending.lt (by omega) (List.getElem?_eq_getElem long) there
  signing := newest.latest

/-! ## Loading anew -/

/-- Two stores have the same keys, whatever their order. -/
def SameKeys {τ : Type} [KeyStore τ] (store : σ) (other : τ) : Prop :=
  ∀ keyClass, ∃ keys listed, KeyStore.keys keyClass store = .ok keys ∧
    KeyStore.keys keyClass other = .ok listed ∧ listed.Perm keys

structure SameRing (ring other : KeyRing) : Prop where
  current : ring.signing.current = other.signing.current
  all : ring.signing.all.Perm other.signing.all
  encryption : ring.encryption = other.encryption

theorem Stock.load_same {origin : Store} {keeper : Keeper σ} {keys : KeyTable} {lost : Key → Prop}
    (stock : Stock origin keeper keys lost) (settled : ∀ previous, ¬lost previous)
    (inOrder : InOrder keys) (coherent : keeper.Coherent) (newest : keeper.ring.Newest) {τ : Type}
    [KeyStore τ] {other : τ} (same : SameKeys keeper.store other) :
    ∃ ring events, load other = (.ok ring, events) ∧ SameRing ring keeper.ring := by
  obtain ⟨signing, listedSigning, read, isSigning, signingPerm⟩ := same .signing
  obtain rfl := table_of_keys read
  obtain ⟨encryption, listedEncryption, readToo, isEncryption, encryptionPerm⟩ := same .encryption
  obtain rfl := table_of_keys readToo
  have known : (table keeper.store .signing).Perm keeper.ring.signing.all :=
    (LawfulKeyStore.readable stock.sound .signing).2.perm newest.distinct fun id =>
      (coherent.agree id).symm
  have sorted : sortByExpiry listedEncryption = keys :=
    sortByExpiry_eq (encryptionPerm.trans (stock.perm settled)) inOrder.descending
  refine ⟨ofTables listedSigning listedEncryption, _, by rw [load, isSigning, isEncryption], ?_⟩
  exact
    { current := newest.latest?_eq (signingPerm.trans known)
      all := signingPerm.trans known
      encryption := by
        rw [ofTables, sorted, ← stock.current, ← stock.previous] }

/-- Let a ring be loaded from a store in which the keys of each class are fit for use and expire at
different times, and let it be asked for keys at any times, whichever writes to the store fail, and be
loaded anew at times. If no rotation is half done, and no two keys were minted under one identifier,
then a ring that is loaded from what is now in the store, in any order, has the same keys in the same
places, which are those of their expiry. -/
theorem restart_transparent {store : Store} (sound : LawfulKeyStore.Sound store)
    (dated : ∀ keyClass, Dated store keyClass) (breaks : List (Option (Break × StoreError)))
    (operations : List Operation) {loaded keeper : Keeper (Unreliable Store)}
    (isLoaded : loaded = opened ⟨store, breaks⟩) (isRun : keeper = loaded.run operations)
    (settled : ∀ previous, ¬HalfDone loaded operations previous)
    (fresh : FreshIds store keeper.trail) :
    SameKeys keeper.store keeper.store ∧ keeper.Chronological ∧
      ∀ {τ : Type} [KeyStore τ] {other : τ}, SameKeys keeper.store other →
        ∃ ring events, load other = (.ok ring, events) ∧ SameRing ring keeper.ring := by
  subst isRun
  have ready : LawfulKeyStore.Sound (Unreliable.mk store breaks) := sound
  have coherent : loaded.Coherent := isLoaded ▸ coherent_opened ready
  have start : Stock store loaded _ _ := isLoaded ▸ stock_opened ready
  have newest : loaded.ring.Newest := by
    rw [isLoaded, opened, reload_of_sound ready]
    exact newest_ofTables (LawfulKeyStore.readable sound .signing).2 (dated .signing).fit
      (dated .signing).apart _
  have ordered : InOrder (sortByExpiry (table (Unreliable.mk store breaks) .encryption)) :=
    Dated.inOrder ⟨(dated .encryption).fit, (dated .encryption).apart⟩ ready
  obtain ⟨keys, stock, -, inOrder⟩ := run_stock start operations fresh
  have after := (run_coherent_extends coherent operations).1
  have latest := run_newest coherent newest operations
  refine ⟨fun keyClass => ?_, stock.chronological (inOrder ordered) latest, fun same =>
    stock.load_same settled (inOrder ordered) after latest same⟩
  have read := (LawfulKeyStore.readable stock.sound keyClass).1
  exact ⟨_, _, read, read, .refl _⟩

def turned (store : σ) : MemoryStore :=
  ⟨(table store .signing).reverse, (table store .encryption).reverse, false, false⟩

theorem turned_store_loads_the_same :
    ∃ ring events, load (turned (sampleLoaded.run mendedRotation).store) = (.ok ring, events) ∧
      SameRing ring (sampleLoaded.run mendedRotation).ring := by
  have settled (previous : Key) (halfDone : HalfDone sampleLoaded mendedRotation previous) : False :=
    halfDone.not_minted (by decide)
  have dated (keyClass : KeyClass) : Dated sampleShelf keyClass := by
    cases keyClass <;> exact ⟨by decide, by decide⟩
  obtain ⟨-, -, same⟩ := restart_transparent filled_sampleShelf.sound dated _ mendedRotation rfl rfl
    settled fresh_mendedRotation
  refine same fun keyClass => ?_
  cases keyClass <;> exact ⟨_, _, rfl, rfl, List.reverse_perm _⟩

end Keeper

end Bearer
