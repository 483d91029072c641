import Bearer.Proofs.Token.Envelope
import Mathlib.Data.List.Basic

namespace Bearer.Envelope

/-! ## Dots -/

theorem length_splitOn (chars : List Char) : (chars.splitOn dot).length = chars.count dot + 1 := by
  induction chars with
  | nil => rfl
  | cons c chars ih =>
      rw [List.splitOn_cons_eq_if_modifyHead, List.count_cons]
      split
      · rw [List.length_cons, ih]
      · rw [List.length_modifyHead, ih, Nat.add_zero]

theorem exists_split_iff {token : String} :
    (∃ envelope, split token = .ok envelope) ↔ token.toList.count dot = 2 := by
  have parts := length_splitOn token.toList
  constructor
  · rintro ⟨envelope, cut⟩
    unfold split at cut
    split at cut
    · next header payload signature three =>
        rw [three] at parts
        simpa using parts.symm
    · cases cut
  · intro two
    rw [two] at parts
    obtain ⟨header, payload, signature, three⟩ := List.length_eq_three.1 parts
    refine ⟨⟨String.ofList header, String.ofList payload, String.ofList signature⟩, ?_⟩
    simp only [split, three]

/-! ## Places in a token -/

/-- Where the text ends that the signature covers, counted in bytes from the start of the token. -/
def signedEnd (envelope : Envelope) : String.Pos.Raw :=
  ⟨envelope.header64.utf8ByteSize + 1 + envelope.payload64.utf8ByteSize⟩

theorem rawEndPos_signingInput (envelope : Envelope) :
    envelope.signingInput.rawEndPos = envelope.signedEnd := by
  have dotSize : (".").utf8ByteSize = 1 := by decide
  rw [signedEnd, String.rawEndPos, signingInput, String.utf8ByteSize_append,
    String.utf8ByteSize_append, dotSize]

theorem isValid_signedEnd (envelope : Envelope) : envelope.signedEnd.IsValid envelope.token :=
  String.Pos.Raw.isValid_iff_exists_append.2 ⟨envelope.signingInput,
    "." ++ envelope.signature64, String.append_assoc, (rawEndPos_signingInput envelope).symm⟩

theorem slice_signedEnd (envelope : Envelope) :
    (envelope.token.sliceTo ⟨envelope.signedEnd, isValid_signedEnd envelope⟩).copy =
      envelope.signingInput :=
  String.Pos.Splits.copy_sliceTo_eq
    ⟨String.append_assoc, (rawEndPos_signingInput envelope).symm⟩

/-! ## Exactness -/

structure Cut (token : String) (envelope : Envelope) : Prop where
  whole : token = envelope.header64 ++ "." ++ envelope.payload64 ++ "." ++ envelope.signature64
  segmented : envelope.Segmented
  covered : envelope.signingInput = envelope.header64 ++ "." ++ envelope.payload64
  slice : ∃ inside : envelope.signedEnd.IsValid token,
    (token.sliceTo ⟨envelope.signedEnd, inside⟩).copy = envelope.signingInput

theorem split_eq_ok_iff_cut {token : String} {envelope : Envelope} :
    split token = .ok envelope ↔ Cut token envelope := by
  rw [split_eq_ok_iff]
  constructor
  · rintro ⟨rfl, segmented⟩
    exact ⟨rfl, segmented, rfl, isValid_signedEnd envelope, slice_signedEnd envelope⟩
  · intro cut
    exact ⟨cut.whole, cut.segmented⟩

def ofBytes (header payload signature : Bytes) : Envelope :=
  ⟨encodeSegment header, encodeSegment payload, encodeSegment signature⟩

theorem segmented_ofBytes (header payload signature : Bytes) :
    (ofBytes header payload signature).Segmented :=
  ⟨dotFree_encodeSegment _, dotFree_encodeSegment _, dotFree_encodeSegment _⟩

theorem mem_alphabet_of_mem_ofBytes {header payload signature : Bytes} {c : Char}
    (member : c ∈ (ofBytes header payload signature).token.toList) :
    c ∈ Base64Url.alphabet ∨ c = dot := by
  rw [toList_token, List.mem_append, List.mem_cons, List.mem_append, List.mem_cons] at member
  rcases member with inHeader | isDot | inPayload | isDot | inSignature
  · exact .inl (Base64Url.mem_alphabet_of_mem_encode inHeader)
  · exact .inr isDot
  · exact .inl (Base64Url.mem_alphabet_of_mem_encode inPayload)
  · exact .inr isDot
  · exact .inl (Base64Url.mem_alphabet_of_mem_encode inSignature)

/-- A token is cut exactly when it has two dots. The segments hold no dot and make up the token, and
what the signature covers, the first two of them with their dot, is a slice of the token: it ends
within the token, and where a character ends. Any three byte strings make a token, of symbols and two
dots alone, and its segments decode to them. -/
theorem split_exact (token : String) :
    ((∃ envelope, split token = .ok envelope) ↔ token.toList.count dot = 2) ∧
    (∀ envelope, split token = .ok envelope ↔ Cut token envelope) ∧
    ∀ header payload signature : Bytes,
      let written := encodeSegment header ++ "." ++ encodeSegment payload ++ "." ++
        encodeSegment signature
      (∀ c ∈ written.toList, c ∈ Base64Url.alphabet ∨ c = dot) ∧ written.toList.count dot = 2 ∧
      ∃ envelope, split written = .ok envelope ∧ decode envelope.header64 "header" = .ok header ∧
        envelope.payload = .ok payload ∧ envelope.signature = .ok signature := by
  refine ⟨exists_split_iff, fun envelope => split_eq_ok_iff_cut, ?_⟩
  intro header payload signature
  have cut := split_token (segmented_ofBytes header payload signature)
  refine ⟨fun c => mem_alphabet_of_mem_ofBytes, exists_split_iff.1 ⟨_, cut⟩, _, cut, ?_, ?_, ?_⟩
  · exact decode_eq_ok_iff_segment.2 rfl
  · exact decode_eq_ok_iff_segment.2 rfl
  · exact decode_eq_ok_iff_segment.2 rfl

end Bearer.Envelope
