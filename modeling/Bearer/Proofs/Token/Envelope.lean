import Bearer.Proofs.Base64Url
import Bearer.Token.Envelope

namespace Bearer

def DotFree (text : String) : Prop := Envelope.dot ∉ text.toList

theorem dotFree_encodeSegment (bytes : Bytes) : DotFree (encodeSegment bytes) := by
  intro member
  have outside : Envelope.dot ∉ Base64Url.alphabet := by decide
  exact outside (Base64Url.mem_alphabet_of_mem_encode member)

namespace Envelope

/-! ## Cutting at dots -/

theorem notMem_of_mem_splitOn {chars part : List Char} (member : part ∈ chars.splitOn dot) :
    dot ∉ part := by
  induction chars generalizing part with
  | nil =>
      rw [List.splitOn_nil, List.mem_singleton] at member
      simp [member]
  | cons c chars ih =>
      rw [List.splitOn_cons_eq_if_modifyHead] at member
      split at member
      · rcases List.mem_cons.1 member with rfl | member
        · simp
        · exact ih member
      · next other =>
          cases parts : chars.splitOn dot with
          | nil => exact absurd parts (List.splitOn_ne_nil _ _)
          | cons first rest =>
              rw [parts, List.modifyHead_cons] at member
              rcases List.mem_cons.1 member with rfl | member
              · have first_free : dot ∉ first := ih (by rw [parts]; exact List.mem_cons_self)
                simp only [List.mem_cons, not_or]
                exact ⟨fun equal => other (by simp [equal]), first_free⟩
              · exact ih (by rw [parts]; exact List.mem_cons_of_mem _ member)

theorem toList_token (envelope : Envelope) : envelope.token.toList =
    envelope.header64.toList ++ dot :: (envelope.payload64.toList ++ dot ::
      envelope.signature64.toList) := by
  simp [token, signingInput, dot]

structure Segmented (envelope : Envelope) : Prop where
  header : DotFree envelope.header64
  payload : DotFree envelope.payload64
  signature : DotFree envelope.signature64

theorem split_token {envelope : Envelope} (segmented : envelope.Segmented) :
    split envelope.token = .ok envelope := by
  have parts : envelope.token.toList.splitOn dot =
      [envelope.header64.toList, envelope.payload64.toList, envelope.signature64.toList] := by
    rw [toList_token, List.splitOn_append_cons_self_of_not_mem segmented.header,
      List.splitOn_append_cons_self_of_not_mem segmented.payload,
      List.splitOn_eq_singleton segmented.signature]
  simp [split, parts]

theorem split_eq_ok_iff {token : String} {envelope : Envelope} :
    split token = .ok envelope ↔ token = envelope.token ∧ envelope.Segmented := by
  constructor
  · intro cut
    unfold split at cut
    split at cut
    · next header payload signature parts =>
        cases cut
        have free {part : List Char} (member : part ∈ [header, payload, signature]) :
            DotFree (String.ofList part) := by
          rw [DotFree, String.toList_ofList]
          exact notMem_of_mem_splitOn (parts ▸ member)
        refine ⟨?_, free (by simp), free (by simp), free (by simp)⟩
        have joined : [dot].intercalate (token.toList.splitOn dot) = token.toList :=
          List.intercalate_splitOn dot
        rw [parts] at joined
        apply String.toList_injective
        rw [toList_token, ← joined]
        simp [List.intercalate, List.intersperse]
    · cases cut
  · rintro ⟨rfl, segmented⟩
    exact split_token segmented

theorem segmented_of_split {token : String} {envelope : Envelope}
    (cut : split token = .ok envelope) : envelope.Segmented := (split_eq_ok_iff.1 cut).2

/-! ## Segments as bytes -/

theorem decode_eq_ok_iff_segment {segment what : String} {bytes : Bytes} :
    decode segment what = .ok bytes ↔ segment = encodeSegment bytes :=
  mapError_eq_ok.trans Base64Url.decode_eq_ok_iff

theorem header_eq_ok_iff {envelope : Envelope} {header : Header} : envelope.header = .ok header ↔
    ∃ bytes, envelope.header64 = encodeSegment bytes ∧ Header.read bytes = .ok header := by
  simp only [Envelope.header, bind_eq_ok, decode_eq_ok_iff_segment, mapError_eq_ok]

end Envelope

end Bearer
