import Bearer.Proofs.Key.Change
import Bearer.Proofs.Key.Restart
import Bearer.Proofs.Token.Encrypted
/-!
# Superseded encryption keys

A key that the store had, and that is in neither slot, is out of use.

* `Forgotten.run`: if the store has it no more, it stays away whatever happens.
* `Spare.run`: if it was left in the store, it stays where it is as long as the ring is not loaded anew
  while a rotation is half done.
* `superseded_key_stays_out`: so that nothing is opened with it again. `leftover_key_comes_back` is what
  happens otherwise.
-/

namespace Bearer

open KeyStore KeyRing

namespace Keeper

variable {σ : Type} [KeyStore σ] [LawfulKeyStore σ]

/-! ## One key under one identifier -/

structure Only (keeper : Keeper σ) (key : Key) : Prop where
  stored : ∀ other, held keeper.store .encryption key.id = some other → other = key
  slotted : ∀ other, keeper.ring.Slotted other → other.id = key.id → other = key

theorem Stock.only {origin : Store} {keeper : Keeper σ} {keys : KeyTable} {lost : Key → Prop}
    (stock : Stock origin keeper keys lost) {key : Key}
    (there : held keeper.store .encryption key.id = some key) : keeper.Only key where
  stored other found := Option.some.inj (found.symm.trans there)
  slotted other slotted same := by
    have inside := stock.distinct.find?_of_mem (stock.mem_iff.2 (.inl slotted))
    rw [same, stock.distinct.find?_of_mem (stock.mem_of_held there).1] at inside
    exact (Option.some.inj inside).symm

theorem Only.reload {keeper : Keeper σ} (sound : LawfulKeyStore.Sound keeper.store) {key : Key}
    (only : keeper.Only key) : keeper.reload.Only key where
  stored := by
    rw [store_reload sound]
    exact only.stored
  slotted other slotted same := by
    apply only.stored
    rw [← same]
    exact held_of_slotted_reload sound slotted

theorem Only.ask {origin : Store} {keeper : Keeper σ}
    (sound : LawfulKeyStore.Sound keeper.store) {key : Key} (only : keeper.Only key)
    (taken : Taken origin keeper.trail key.id) {request : Request}
    (fresh : FreshIds origin (keeper.operate (.ask request)).trail) :
    (keeper.operate (.ask request)).Only key := by
  obtain ⟨events, trail, -, change⟩ := change_of_ask sound request
  have slotted := only.slotted
  unfold Slotted at slotted
  cases change with
  | none spares =>
      refine ⟨?_, by unfold Slotted; rw [spares.slots]; exact slotted⟩
      rw [spares.same]
      exact only.stored
  | removed _ removes =>
      refine ⟨?_, by unfold Slotted; rw [removes.slots]; exact slotted⟩
      intro other found
      rw [removes.holds] at found
      split at found
      · cases found
      · exact only.stored other found
  | @rotated minted _ rotates =>
      have apart : key.id ≠ minted.id := taken.id_ne (rotates.told ▸ trail ▸ fresh)
      constructor
      · intro other found
        rw [rotates.holds, if_neg apart] at found
        split at found
        · cases found
        · exact only.stored other found
      · unfold Slotted
        rw [rotates.slots]
        rintro other (⟨⟨⟩⟩ | isPrevious) same
        · exact absurd same.symm apart
        · exact slotted other (.inl isPrevious) same

/-! ## Runs -/

section Runs

variable {origin : Store} {loaded : Keeper σ} {before : List Operation} {key : Key}

theorem LoadedFrom.induct_run (start : LoadedFrom origin loaded) {motive : Keeper σ → Prop}
    (taken : Taken origin (loaded.run before).trail key.id) (begins : motive (loaded.run before))
    (reload : ∀ keeper : Keeper σ, LawfulKeyStore.Sound keeper.store → motive keeper →
      motive keeper.reload)
    (ask : ∀ (keeper : Keeper σ) (request : Request), LawfulKeyStore.Sound keeper.store →
      motive keeper → Taken origin keeper.trail key.id →
      FreshIds origin (keeper.operate (.ask request)).trail → motive (keeper.operate (.ask request)))
    (rest : List Operation) (fresh : FreshIds origin (loaded.run (before ++ rest)).trail) :
    Taken origin (loaded.run (before ++ rest)).trail key.id ∧ motive (loaded.run (before ++ rest)) := by
  induction rest using List.reverseRecOn with
  | nil => rw [List.append_nil]; exact ⟨taken, begins⟩
  | append_singleton rest operation ih =>
      rw [← List.append_assoc] at fresh ⊢
      obtain ⟨takenStill, still⟩ := ih (fresh_run fresh)
      have sound := start.sound_run (before ++ rest)
      obtain ⟨events, trail⟩ := trail_operate (loaded.run (before ++ rest)) operation
      rw [run_concat] at fresh ⊢
      constructor
      · rw [trail]
        exact takenStill.append events
      · cases operation with
        | reload => exact reload _ sound still
        | ask request => exact ask _ request sound still takenStill fresh

theorem Only.run (start : LoadedFrom origin loaded) (only : (loaded.run before).Only key)
    (taken : Taken origin (loaded.run before).trail key.id) {rest : List Operation}
    (fresh : FreshIds origin (loaded.run (before ++ rest)).trail) :
    Taken origin (loaded.run (before ++ rest)).trail key.id ∧ (loaded.run (before ++ rest)).Only key :=
  start.induct_run (motive := fun keeper => keeper.Only key) taken only
    (fun _ sound only => only.reload sound)
    (fun _ _ sound only taken fresh => only.ask sound taken fresh) rest fresh

theorem Forgotten.run (start : LoadedFrom origin loaded) (forgotten : (loaded.run before).Forgotten key)
    (taken : Taken origin (loaded.run before).trail key.id) {rest : List Operation}
    (fresh : FreshIds origin (loaded.run (before ++ rest)).trail) :
    (loaded.run (before ++ rest)).Forgotten key :=
  (start.induct_run (motive := fun keeper => keeper.Forgotten key) taken forgotten
    (fun _ sound forgotten => forgotten_reload sound forgotten.store)
    (fun _ _ sound forgotten taken fresh => forgotten.ask sound taken fresh) rest fresh).2

theorem Spare.run {keys : KeyTable} (start : Stock origin loaded keys fun _ => False)
    (ordered : InOrder keys) (spare : (loaded.run before).Spare key) {rest : List Operation}
    (settled : ∀ first second, rest = first ++ .reload :: second →
      ∀ previous, ¬HalfDone loaded (before ++ first) previous)
    (fresh : FreshIds origin (loaded.run (before ++ rest)).trail) :
    (loaded.run (before ++ rest)).Spare key := by
  induction rest using List.reverseRecOn with
  | nil => rwa [List.append_nil]
  | append_singleton rest operation ih =>
      rw [← List.append_assoc] at fresh ⊢
      have still : (loaded.run (before ++ rest)).Spare key := by
        apply ih _ (fresh_run fresh)
        rintro first second rfl
        exact settled first (second ++ [operation]) (by simp)
      obtain ⟨between, stock, -, inOrder⟩ := run_stock start (before ++ rest) (fresh_run fresh)
      cases operation with
      | ask request =>
          obtain ⟨later, after, kept, -⟩ := operate_stock stock (.ask request) fresh
          rw [after.spare_iff, kept nofun, ← stock.spare_iff]
          exact still
      | reload =>
          have perm := stock.perm (settled rest [] rfl)
          have after : Stock origin (loaded.run (before ++ rest)).reload _ _ :=
            stock_reload stock.sound fun other inside => stock.taken other (perm.mem_iff.1 inside)
          rw [run_concat, operate, after.spare_iff,
            sortByExpiry_eq perm (inOrder ordered).descending, ← stock.spare_iff]
          exact still

end Runs

/-- A key that is in no slot, because it is gone or was left in the store. -/
def Aside (keeper : Keeper σ) (key : Key) : Prop := keeper.Forgotten key ∨ keeper.Spare key

theorem LoadedFrom.aside {origin : Store} {loaded : Keeper σ} {earlier later : List Operation}
    {key : Key} (start : LoadedFrom origin loaded)
    (there : held (loaded.run earlier).store .encryption key.id = some key)
    (superseded : ¬(loaded.run (earlier ++ later)).ring.Slotted key)
    (fresh : FreshIds origin (loaded.run (earlier ++ later)).trail) :
    Taken origin (loaded.run (earlier ++ later)).trail key.id ∧
      (loaded.run (earlier ++ later)).Aside key := by
  have early := fresh_run fresh
  obtain ⟨keys, stock⟩ := start.stock_run early
  have takenEarly := start.taken early (Option.ne_none_iff_exists'.2 ⟨key, there⟩)
  obtain ⟨taken, only⟩ := (stock.only there).run start takenEarly fresh
  refine ⟨taken, ?_⟩
  cases found : held (loaded.run (earlier ++ later)).store .encryption key.id with
  | some other =>
      obtain rfl := only.stored other found
      exact .inr ⟨found, superseded⟩
  | none =>
      left
      have foreign (other : Key) (slotted : (loaded.run (earlier ++ later)).ring.Slotted other) :
          other.id ≠ key.id := by
        intro same
        obtain rfl := only.slotted other slotted same
        exact superseded slotted
      exact ⟨fun other slot => foreign other (.inl slot),
        fun other slot => foreign other (.inr slot), found⟩

theorem Aside.run {origin : Store} {loaded : Keeper σ} {before rest : List Operation} {key : Key}
    (start : LoadedFrom origin loaded) (ordered : ∃ keys, Stock origin loaded keys (fun _ => False) ∧
      InOrder keys) (aside : (loaded.run before).Aside key)
    (taken : Taken origin (loaded.run before).trail key.id)
    (settled : (loaded.run before).Spare key → ∀ first second, rest = first ++ .reload :: second →
      ∀ previous, ¬HalfDone loaded (before ++ first) previous)
    (fresh : FreshIds origin (loaded.run (before ++ rest)).trail) :
    (loaded.run (before ++ rest)).Aside key := by
  rcases aside with forgotten | spare
  · exact .inl (forgotten.run start taken fresh)
  · obtain ⟨keys, stock, inOrder⟩ := ordered
    exact .inr (spare.run stock inOrder (settled spare) fresh)

theorem Stock.id_ne_of_aside {origin : Store} {keeper : Keeper σ} {keys : KeyTable}
    {lost : Key → Prop} (stock : Stock origin keeper keys lost) {key other : Key}
    (aside : keeper.Aside key) (slotted : keeper.ring.Slotted other) : other.id ≠ key.id := by
  rcases aside with forgotten | spare
  · exact forgotten.id_ne slotted
  · intro same
    obtain rfl := (stock.only spare.1).slotted other slotted same
    exact spare.2 slotted

end Keeper

/-! ## Opening -/

namespace TokenService

open Keeper

variable {σ : Type} [KeyStore σ]

theorem keeper_verifyEncrypted_of_unwrap (service : TokenService) {keeper : Keeper σ}
    {token : String} {encryptionKey signingKey : Option Bytes}
    (ringKeys : explicit encryptionKey = none) {sealed : Bytes}
    (read : unwrap keeper.ring token signingKey = .ok sealed) (now : Instant) (entropy : Entropy) :
    (perform (service.verifyEncrypted token encryptionKey signingKey now entropy) keeper).2 =
      keeper.operate (.ask ⟨.encryption, now, entropy.encryptionKey⟩) := by
  rw [verifyEncrypted_of_unwrap service ringKeys read]
  change _ = (perform (currentEncryptionKey now entropy.encryptionKey) keeper).2
  rcases perform (currentEncryptionKey now entropy.encryptionKey) keeper with ⟨fault | current, after⟩
  · rfl
  · rfl

theorem openWithKeys_ne_ok {sealed text : Bytes} {ring : KeyRing} {current : Key}
    (isCurrent : ring.encryption.current = some current)
    (closed : ∀ other, ring.Slotted other → ∀ text, openSealed sealed other.secret ≠ .ok text) :
    openWithKeys sealed current ring.encryption.previous ≠ .ok text := by
  intro opens
  obtain ⟨other, slotted, opens⟩ := opened_of_openWithKeys isCurrent opens
  exact closed other slotted text opens

theorem verifyEncrypted_ne_ok (service : TokenService) {keeper answered : Keeper σ} {token : String}
    {encryptionKey signingKey : Option Bytes} (ringKeys : explicit encryptionKey = none)
    {sealed : Bytes} (read : unwrap keeper.ring token signingKey = .ok sealed) {now : Instant}
    {entropy : Entropy} {outcome : Except Error Claims}
    (done : perform (service.verifyEncrypted token encryptionKey signingKey now entropy) keeper =
      (outcome, answered))
    (closed : ∀ other, answered.ring.Slotted other →
      ∀ text, openSealed sealed other.secret ≠ .ok text) (claims : Claims) :
    outcome ≠ .ok claims := by
  rintro rfl
  rw [verifyEncrypted_of_unwrap service ringKeys read] at done
  rcases asked : perform (currentEncryptionKey now entropy.encryptionKey) keeper with
    ⟨fault | current, after⟩
  · rw [asked] at done
    cases done
  · rw [asked] at done
    obtain ⟨opens, rfl⟩ := Prod.mk.inj done
    obtain ⟨text, isText, -⟩ := bind_eq_ok.1 opens
    exact openWithKeys_ne_ok (currentEncryptionKey_step asked).current closed isText

end TokenService

open Keeper TokenService

/-- Let a ring be loaded from a store in which the encryption keys are fit for use and expire at
different times, and let it be asked for keys at any times, whichever writes to the store fail, and be
loaded anew at times, with no two keys minted under one identifier. Let a key that the store has had be
in neither slot. If the store has lost it, or if the ring is not loaded anew in the middle of a rotation
from then on, it is never in a slot again, and nothing that opens under no other key is opened with the
keys of the ring. -/
theorem superseded_key_stays_out (service : TokenService) {store : Store}
    (sound : LawfulKeyStore.Sound store) (dated : Dated store .encryption)
    (breaks : List (Option (Break × StoreError))) (before rest : List Operation)
    {loaded keeper : Keeper (Unreliable Store)} (isLoaded : loaded = opened ⟨store, breaks⟩)
    (isKeeper : keeper = loaded.run (before ++ rest)) {key : Key}
    (known : ∃ earlier later, before = earlier ++ later ∧
      held (loaded.run earlier).store .encryption key.id = some key)
    (superseded : ¬(loaded.run before).ring.Slotted key)
    (settled : (loaded.run before).Spare key → ∀ first second, rest = first ++ .reload :: second →
      ∀ previous, ¬HalfDone loaded (before ++ first) previous)
    (fresh : FreshIds store keeper.trail) :
    (∀ other, keeper.ring.Slotted other → other.id ≠ key.id) ∧
      ∀ {token encryptionKey signingKey now entropy outcome answered sealed},
        explicit encryptionKey = none → unwrap keeper.ring token signingKey = .ok sealed →
        perform (service.verifyEncrypted token encryptionKey signingKey now entropy) keeper =
          (outcome, answered) →
        FreshIds store answered.trail → ClosedToOthers answered key sealed →
        ∀ claims, outcome ≠ .ok claims := by
  subst isKeeper
  have start : LoadedFrom store loaded := isLoaded ▸ loadedFrom_opened sound breaks
  have ordered : ∃ keys, Stock store loaded keys (fun _ => False) ∧ InOrder keys := by
    subst isLoaded
    have ready : LawfulKeyStore.Sound (Unreliable.mk store breaks) := sound
    have distinct := (LawfulKeyStore.readable sound .encryption).2
    exact ⟨_, stock_opened ready, inOrder_sortByExpiry distinct.nodup dated.fit dated.apart⟩
  obtain ⟨earlier, later, rfl, there⟩ := known
  obtain ⟨taken, aside⟩ := start.aside there superseded (fresh_run fresh)
  have out := aside.run start ordered taken settled fresh
  obtain ⟨keys, stock⟩ := start.stock_run fresh
  refine ⟨fun other slotted => stock.id_ne_of_aside out slotted, ?_⟩
  -- A call on a token is one more request.
  intro token encryptionKey signingKey now entropy outcome answered sealed ringKeys read done
    freshStill closed
  have isAnswered := keeper_verifyEncrypted_of_unwrap service ringKeys read now entropy
  rw [done, ← run_concat] at isAnswered
  obtain rfl : answered = _ := isAnswered
  obtain ⟨events, trail⟩ := trail_run (loaded.run (earlier ++ later)) rest
  rw [← run_append] at trail
  have outStill : (loaded.run (earlier ++ later ++ rest ++ [.ask ⟨.encryption, now,
      entropy.encryptionKey⟩])).Aside key := by
    apply out.run start ordered (trail ▸ taken.append events) _ freshStill
    intro _ first second whole
    have inside : Operation.reload ∈ [Operation.ask ⟨.encryption, now, entropy.encryptionKey⟩] := by
      simp [whole]
    simp at inside
  obtain ⟨keys, stock⟩ := start.stock_run freshStill
  exact verifyEncrypted_ne_ok service ringKeys read done fun other slotted =>
    closed other slotted (stock.id_ne_of_aside outStill slotted)

def sampleLeftover : Key := ⟨(sampleDraw 7).id, (sampleSecret 1).bytes, sampleDay 0⟩

def leftoverShelf : Store := shelved [sampleLeftover, sampleKey 8 1, sampleKey 9 2]

def leftoverLoaded : Keeper (Unreliable Store) :=
  opened ⟨leftoverShelf, [none, none, some (.unopened, .backend .savesDisabled)]⟩

def sampleLater : Keeper (Unreliable Store) := leftoverLoaded.run (mendedRotation ++ [.reload])

theorem fresh_sampleLater : FreshIds leftoverShelf sampleLater.trail := by decide

theorem closed_sampleLater {sealed : Bytes}
    (underKey : sealText sampleText sampleLeftover.secret (.ok (sampleNonce 1)) = .ok sealed) :
    ClosedToOthers sampleLater sampleLeftover sealed := by
  have current : sampleLater.ring.encryption.current.map Key.secret = some (sampleSecret 3).bytes := by
    decide
  have previous : sampleLater.ring.encryption.previous = some (sampleKey 9 2) := by decide
  rintro other (isCurrent | isPrevious) -
  · rw [isCurrent] at current
    rw [Option.some.inj current]
    exact openSealed_sampleText underKey
  · obtain rfl := Option.some.inj (previous.symm.trans isPrevious)
    exact openSealed_ne_ok_of_length (by decide)

theorem leftover_key_stays_out :
    (∀ other, sampleLater.ring.Slotted other → other.id ≠ sampleLeftover.id) ∧
      ∃ token sealed, unwrap sampleLater.ring token none = .ok sealed ∧
        openSealed sealed sampleLeftover.secret = .ok sampleText ∧
        ∀ claims, (perform (sampleService.verifyEncrypted token none none (sampleDay 1000)
          (sampleEntropy 5)) sampleLater).1 ≠ .ok claims := by
  have settled (first second : List Operation)
      (whole : mendedRotation ++ [.reload] = first ++ .reload :: second) (previous : Key) :
      ¬HalfDone leftoverLoaded first previous := by
    intro halfDone
    rcases cut_of_concat whole with ⟨rfl, -⟩ | ⟨shorter, -, isMended⟩
    · exact halfDone.not_minted (by decide)
    · have inside : Operation.reload ∈ mendedRotation := by simp [isMended]
      simp [mendedRotation, tornRotation] at inside
  have known : held (leftoverLoaded.run []).store .encryption sampleLeftover.id =
      some sampleLeftover := by decide
  obtain ⟨out, closed⟩ := superseded_key_stays_out sampleService (filled_shelved _).sound
    ⟨by decide, by decide⟩ _ [] (mendedRotation ++ [.reload]) (rfl : leftoverLoaded = _)
    (rfl : sampleLater = _) ⟨[], [], rfl, known⟩ (by decide) (fun _ => settled) fresh_sampleLater
  obtain ⟨sealed, underKey⟩ : ∃ sealed, sealText sampleText sampleLeftover.secret
      (.ok (sampleNonce 1)) = .ok sealed :=
    exists_sealText (sampleSecret 1).length_eq (by decide) (sampleNonce 1)
  obtain ⟨signer, found⟩ : ∃ signer, sampleLater.ring.signing.all.find? (sampleDraw 2).id =
    some signer := ⟨_, rfl⟩
  have known : sampleLater.ring.signing.all.find? signer.id = some signer := by
    rw [KeyTable.id_of_find? found, found]
  have read := unwrap_signedToken known (nonceLength_le_of_sealText underKey)
  refine ⟨out, _, sealed, read, openSealed_of_sealText underKey, fun claims => ?_⟩
  generalize signedToken (named .encrypted signer) sealed signer.secret = token at read ⊢
  rcases done : perform (sampleService.verifyEncrypted token none none (sampleDay 1000)
    (sampleEntropy 5)) sampleLater with ⟨outcome, answered⟩
  have valid : (sampleLater.ring.validEncryptionKey? (sampleDay 1000)).isSome := by decide
  have same : answered = sampleLater :=
    (congrArg Prod.snd done).symm.trans (verifyEncrypted_of_valid sampleService valid)
  exact closed explicit_none read done (same ▸ fresh_sampleLater)
    (same ▸ closed_sampleLater underKey) claims

/-- It comes back if the ring is loaded anew before that. -/
theorem leftover_key_comes_back :
    held sampleLoaded.store .encryption (sampleKey 7 0).id = some (sampleKey 7 0) ∧
      ¬sampleLoaded.ring.Slotted (sampleKey 7 0) ∧
      (sampleLoaded.run (tornRotation ++ [.reload])).ring.Slotted (sampleKey 7 0) := by
  decide

end Bearer
