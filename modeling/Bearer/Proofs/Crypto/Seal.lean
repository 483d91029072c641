import Bearer.Crypto.Seal
/-!
# Sealing and opening

* `openSealed_of_sealText`: what is sealed opens again under the same key.
* `openSealed_eq_ok_iff`: nothing else opens. A text that opens is the seal of what comes out, under
  the nonce in front of it.
* `openSealed_eq_aead`: with a key of the right length, all that can go wrong with a text that has a
  nonce is the seal itself.
* `sealing_exact`: all this together, with the lengths, and with the error for every other text.
-/

namespace Bearer

open Aes256 in
theorem Gcm.decrypt_of_encrypt {key nonce plaintext sealed : Bytes}
    (done : encrypt key nonce plaintext = some sealed) :
    decrypt key nonce sealed = some plaintext := by
  simp only [encrypt] at done
  split at done
  · cases done
  · next short =>
      obtain rfl := Option.some.inj done
      have total : (applyStream (roundKeys key) nonce plaintext ++
          tag (roundKeys key) nonce (applyStream (roundKeys key) nonce plaintext)).length -
            tagLength = (applyStream (roundKeys key) nonce plaintext).length := by
        simp
      simp only [decrypt, total, List.take_left, List.drop_left]
      rw [if_neg (by simp), length_applyStream, if_neg short, if_pos (beq_iff_eq.2 rfl),
        applyStream_applyStream]

open Aes256 in
/-- The key stream is its own inverse and the tag is compared as a whole, so a text that opens is
the one that sealing gives back. -/
theorem Gcm.encrypt_of_decrypt {key nonce plaintext sealed : Bytes}
    (done : decrypt key nonce sealed = some plaintext) :
    encrypt key nonce plaintext = some sealed := by
  simp only [decrypt] at done
  split at done
  · cases done
  · split at done
    · cases done
    · next fits =>
        split at done
        · next same =>
            obtain rfl := Option.some.inj done
            simp only [encrypt]
            rw [length_applyStream, if_neg fits, applyStream_applyStream, beq_iff_eq.1 same,
              List.take_append_drop]
        · cases done

theorem sealText_eq_ok_iff {plaintext key sealed : Bytes} {draw : Drawn Nonce} :
    sealText plaintext key draw = .ok sealed ↔ key.length = keyLength ∧ ∃ nonce, draw = .ok nonce ∧
      ∃ text, Gcm.encrypt key nonce.bytes plaintext = some text ∧ sealed = nonce.bytes ++ text := by
  unfold sealText
  by_cases length : key.length = keyLength
  · rw [if_neg (not_not_intro length)]
    cases draw with
    | error reason => simp
    | ok nonce => cases encrypted : Gcm.encrypt key nonce.bytes plaintext <;>
        simp [length, encrypted, eq_comm]
  · rw [if_pos length]
    simp [length]

theorem exists_sealText {plaintext key : Bytes} (length : key.length = keyLength)
    (short : plaintext.length ≤ Gcm.maxTextLength) (nonce : Nonce) :
    ∃ sealed, sealText plaintext key (.ok nonce) = .ok sealed := by
  simp only [sealText, if_neg (not_not_intro length), Gcm.encrypt, if_neg (Nat.not_lt.2 short)]
  exact ⟨_, rfl⟩

theorem openSealed_of_sealText {plaintext key sealed : Bytes} {draw : Drawn Nonce}
    (done : sealText plaintext key draw = .ok sealed) : openSealed sealed key = .ok plaintext := by
  obtain ⟨length, nonce, rfl, text, encrypted, rfl⟩ := sealText_eq_ok_iff.1 done
  have front : (nonce.bytes ++ text).take Gcm.nonceLength = nonce.bytes := by
    rw [← nonce.length_eq, List.take_left]
  have back : (nonce.bytes ++ text).drop Gcm.nonceLength = text := by
    rw [← nonce.length_eq, List.drop_left]
  have long : ¬(nonce.bytes ++ text).length < Gcm.nonceLength := by
    rw [List.length_append, nonce.length_eq]
    omega
  rw [openSealed, if_neg long, if_neg (not_not_intro length), front, back,
    Gcm.decrypt_of_encrypt encrypted]

theorem Nonce.eq_of_bytes {left right : Nonce} (same : left.bytes = right.bytes) : left = right := by
  cases left
  cases right
  cases same
  rfl

def sealOverhead : Nat := Gcm.nonceLength + Gcm.tagLength

theorem length_sealText {plaintext key sealed : Bytes} {draw : Drawn Nonce}
    (done : sealText plaintext key draw = .ok sealed) :
    sealed.length = plaintext.length + sealOverhead := by
  obtain ⟨-, nonce, -, text, encrypted, rfl⟩ := sealText_eq_ok_iff.1 done
  rw [List.length_append, nonce.length_eq, Gcm.length_encrypt encrypted, sealOverhead]
  omega

theorem decrypt_of_openSealed {sealed key plaintext : Bytes}
    (opened : openSealed sealed key = .ok plaintext) :
    Gcm.nonceLength ≤ sealed.length ∧ key.length = keyLength ∧
      Gcm.decrypt key (sealed.take Gcm.nonceLength) (sealed.drop Gcm.nonceLength) =
        some plaintext := by
  unfold openSealed at opened
  split at opened
  · cases opened
  · next long =>
      split at opened
      · cases opened
      · next length =>
          refine ⟨Nat.not_lt.1 long, Decidable.not_not.1 length, ?_⟩
          split at opened
          · cases opened
          · next decrypted =>
              cases opened
              exact decrypted

theorem openSealed_eq_ok_iff {sealed key plaintext : Bytes} :
    openSealed sealed key = .ok plaintext ↔ ∃ nonce : Nonce,
      nonce.bytes = sealed.take Gcm.nonceLength ∧
        sealText plaintext key (.ok nonce) = .ok sealed := by
  constructor
  · intro opened
    obtain ⟨long, length, decrypted⟩ := decrypt_of_openSealed opened
    have encrypted := Gcm.encrypt_of_decrypt decrypted
    refine ⟨⟨_, List.length_take_of_le long⟩, rfl, sealText_eq_ok_iff.2 ⟨length, _, rfl, ?_⟩⟩
    exact ⟨_, encrypted, (List.take_append_drop ..).symm⟩
  · rintro ⟨nonce, -, done⟩
    exact openSealed_of_sealText done

theorem nonceLength_le_of_sealText {plaintext key sealed : Bytes} {draw : Drawn Nonce}
    (done : sealText plaintext key draw = .ok sealed) : Gcm.nonceLength ≤ sealed.length := by
  obtain ⟨-, nonce, -, text, -, rfl⟩ := sealText_eq_ok_iff.1 done
  rw [List.length_append, nonce.length_eq]
  omega

theorem openSealed_eq_aead {sealed key : Bytes} (long : Gcm.nonceLength ≤ sealed.length)
    (length : key.length = keyLength) (closed : ∀ plaintext, openSealed sealed key ≠ .ok plaintext) :
    openSealed sealed key = .error .aead := by
  cases opened : openSealed sealed key with
  | ok plaintext => exact absurd opened (closed plaintext)
  | error fault =>
      rw [openSealed, if_neg (Nat.not_lt.2 long), if_neg (not_not_intro length)] at opened
      cases decrypted : Gcm.decrypt key (sealed.take Gcm.nonceLength)
          (sealed.drop Gcm.nonceLength) with
      | none =>
          rw [decrypted] at opened
          exact opened.symm
      | some plaintext =>
          rw [decrypted] at opened
          cases opened

theorem openSealed_ne_ok_of_length {sealed key : Bytes} (length : key.length ≠ keyLength)
    (text : Bytes) : openSealed sealed key ≠ .ok text :=
  fun opened => length (decrypt_of_openSealed opened).2.1

theorem openSealed_eq_truncated {sealed : Bytes} (short : sealed.length < Gcm.nonceLength)
    (key : Bytes) : openSealed sealed key = .error .truncated := if_pos short

theorem openSealed_eq_invalidKeyLength {sealed key : Bytes}
    (long : Gcm.nonceLength ≤ sealed.length) (length : key.length ≠ keyLength) :
    openSealed sealed key = .error .invalidKeyLength := by
  rw [openSealed, if_neg (Nat.not_lt.2 long), if_pos length]

/-- Sealing and opening are inverse to each other, so under one key and nonce a plaintext has one
seal. A text that does not open is answered by the first of three errors that applies: that it has
no room for a nonce, whatever the key is; that the key has a wrong length; that the seal is broken,
as it is when there is no room for a tag. -/
theorem sealing_exact (key : Bytes) :
    (∀ plaintext nonce, key.length = 32 → plaintext.length ≤ Gcm.maxTextLength →
      ∃ sealed, sealText plaintext key (.ok nonce) = .ok sealed ∧
        sealed.length = plaintext.length + 28 ∧ openSealed sealed key = .ok plaintext) ∧
    (∀ sealed plaintext, openSealed sealed key = .ok plaintext → ∃ nonce : Nonce,
      nonce.bytes = sealed.take 12 ∧ sealText plaintext key (.ok nonce) = .ok sealed) ∧
    (∀ sealed other plaintext, openSealed sealed key = .ok plaintext →
      openSealed other key = .ok plaintext → other.take 12 = sealed.take 12 → other = sealed) ∧
    ∀ sealed,
      (sealed.length < 12 → openSealed sealed key = .error .truncated) ∧
      (12 ≤ sealed.length → key.length ≠ 32 →
        openSealed sealed key = .error .invalidKeyLength) ∧
      (12 ≤ sealed.length → key.length = 32 →
        (∀ plaintext nonce, sealText plaintext key (.ok nonce) ≠ .ok sealed) →
          openSealed sealed key = .error .aead) ∧
      (12 ≤ sealed.length → sealed.length < 28 → key.length = 32 →
        openSealed sealed key = .error .aead) := by
  have broken (sealed : Bytes) (long : 12 ≤ sealed.length) (length : key.length = 32)
      (closed : ∀ plaintext nonce, sealText plaintext key (.ok nonce) ≠ .ok sealed) :
      openSealed sealed key = .error .aead := by
    refine openSealed_eq_aead long length fun plaintext opened => ?_
    obtain ⟨nonce, -, done⟩ := openSealed_eq_ok_iff.1 opened
    exact closed plaintext nonce done
  refine ⟨fun plaintext nonce length short => ?_, fun sealed plaintext => openSealed_eq_ok_iff.1,
    fun sealed other plaintext opened opened' front => ?_, fun sealed => ?_⟩
  · obtain ⟨sealed, done⟩ := exists_sealText length short nonce
    exact ⟨sealed, done, length_sealText done, openSealed_of_sealText done⟩
  · obtain ⟨nonce, isFront, done⟩ := openSealed_eq_ok_iff.1 opened
    obtain ⟨nonce', isFront', done'⟩ := openSealed_eq_ok_iff.1 opened'
    obtain rfl : nonce' = nonce := Nonce.eq_of_bytes (isFront'.trans (front.trans isFront.symm))
    exact Except.ok.inj (done'.symm.trans done)
  · refine ⟨fun short => openSealed_eq_truncated short key, openSealed_eq_invalidKeyLength,
      broken sealed, fun long short length => ?_⟩
    refine broken sealed long length fun plaintext nonce done => ?_
    have total := length_sealText done
    simp only [sealOverhead, Gcm.nonceLength, Gcm.tagLength] at total
    omega

theorem three_bytes_sealed :
    let key : Bytes := List.replicate 32 9
    let nonce : Nonce := ⟨List.replicate 12 0, rfl⟩
    key.length = 32 ∧ ([1, 2, 3] : Bytes).length ≤ Gcm.maxTextLength ∧
      ∃ sealed, sealText [1, 2, 3] key (.ok nonce) = .ok sealed ∧ sealed.length = 31 ∧
        openSealed sealed key = .ok [1, 2, 3] ∧
        (∀ other, openSealed other key = .ok [1, 2, 3] → other.take 12 = sealed.take 12 →
          other = sealed) ∧
        openSealed sealed [9] = .error .invalidKeyLength ∧
        openSealed nonce.bytes key = .error .aead ∧ openSealed [] [] = .error .truncated := by
  intro key nonce
  have length : key.length = 32 := List.length_replicate
  have short : ([1, 2, 3] : Bytes).length ≤ Gcm.maxTextLength := by decide
  obtain ⟨seals, -, unique, refuses⟩ := sealing_exact key
  obtain ⟨sealed, done, total, opened⟩ := seals [1, 2, 3] nonce length short
  obtain ⟨-, wrongKey, -⟩ := (sealing_exact [9]).2.2.2 sealed
  refine ⟨length, short, sealed, done, total, opened, ?_, ?_, ?_, ?_⟩
  · intro other opened'
    exact unique sealed other [1, 2, 3] opened opened'
  · exact wrongKey (by rw [total]; decide) (by decide)
  · exact (refuses nonce.bytes).2.2.2 (by decide) (by decide) length
  · exact ((sealing_exact []).2.2.2 []).1 (by decide)

end Bearer
