import Bearer.Base64Url
import Bearer.Proofs.Outcome
import Bearer.Proofs.Text.Utf8
import Mathlib.Data.List.GetD

namespace Bearer.Base64Url

/-! ## Symbols -/

def symbolByte (sextet : Nat) : UInt8 := UInt8.ofNat (symbol sextet).toNat

theorem sextet?_symbolByte {value : Nat} (small : value < 64) :
    sextet? (symbolByte value) = some value := by
  have all : ∀ value < 64, sextet? (symbolByte value) = some value := by decide +kernel
  exact all value small

theorem symbolByte_of_sextet? {byte : UInt8} {value : Nat} (read : sextet? byte = some value) :
    symbolByte value = byte ∧ value < 64 := by
  have all : ∀ number < 256, ∀ value ∈ sextet? (UInt8.ofNat number),
      symbolByte value = UInt8.ofNat number ∧ value < 64 := by decide +kernel
  have inside := all byte.toNat byte.toNat_lt
  rw [UInt8.ofNat_toNat] at inside
  exact inside value read

theorem sextet_eq_ok {offset : Nat} {byte : UInt8} {value : Nat} :
    sextet offset byte = .ok value ↔ sextet? byte = some value := by
  unfold sextet
  cases sextet? byte <;> simp

theorem sextet_symbolByte {offset value : Nat} (small : value < 64) :
    sextet offset (symbolByte value) = .ok value := sextet_eq_ok.2 (sextet?_symbolByte small)

theorem symbolByte_ne_pad {value : Nat} (small : value < 64) : symbolByte value ≠ pad := by
  intro equal
  have read := sextet?_symbolByte small
  rw [equal] at read
  cases read

/-! ## Encoding, as bytes -/

def encodeBytes (bytes : Bytes) : Bytes := Utf8.encodeChars (encodeChars bytes)

theorem symbol_mem_alphabet (value : Nat) : symbol value ∈ alphabet := by
  unfold symbol
  by_cases inside : value < alphabet.length
  · rw [List.getD_eq_getElem _ _ inside]
    exact List.getElem_mem inside
  · rw [List.getD_eq_default _ _ (by omega)]
    decide

theorem mem_alphabet_of_mem_encodeChars (bytes : Bytes) :
    ∀ c ∈ encodeChars bytes, c ∈ alphabet := by
  fun_induction encodeChars bytes <;> simp_all [symbol_mem_alphabet]

theorem mem_alphabet_of_mem_encode {bytes : Bytes} {c : Char} (member : c ∈ (encode bytes).toList) :
    c ∈ alphabet := by
  rw [encode, String.toList_ofList] at member
  exact mem_alphabet_of_mem_encodeChars bytes c member

theorem ascii_of_mem_alphabet {c : Char} (member : c ∈ alphabet) : c.toNat < 128 := by
  have all : alphabet.all (fun c => c.toNat < 128) = true := by decide
  simpa using List.all_eq_true.1 all c member

theorem encodeBytes_eq (bytes : Bytes) :
    encodeBytes bytes = (encodeChars bytes).map fun c => UInt8.ofNat c.toNat :=
  Utf8.encodeChars_ascii fun c member =>
    ascii_of_mem_alphabet (mem_alphabet_of_mem_encodeChars bytes c member)

@[simp] theorem encodeBytes_nil : encodeBytes [] = [] := rfl

theorem encodeBytes_one (a : UInt8) :
    encodeBytes [a] = [symbolByte (a.toNat / 4), symbolByte (a.toNat % 4 * 16)] := encodeBytes_eq _

theorem encodeBytes_two (a b : UInt8) :
    encodeBytes [a, b] = [symbolByte (a.toNat / 4),
      symbolByte (a.toNat % 4 * 16 + b.toNat / 16), symbolByte (b.toNat % 16 * 4)] :=
  encodeBytes_eq _

theorem encodeBytes_three (a b c : UInt8) (rest : Bytes) :
    encodeBytes (a :: b :: c :: rest) = symbolByte (a.toNat / 4) ::
      symbolByte (a.toNat % 4 * 16 + b.toNat / 16) ::
        symbolByte (b.toNat % 16 * 4 + c.toNat / 64) :: symbolByte (c.toNat % 64) ::
          encodeBytes rest := by
  rw [encodeBytes_eq, encodeBytes_eq]
  rfl

theorem length_encodeBytes (bytes : Bytes) :
    (encodeBytes bytes).length = (4 * bytes.length + 2) / 3 := by
  fun_induction encodeChars bytes with
  | case1 => rfl
  | case2 a => simp [encodeBytes_one]
  | case3 a b => simp [encodeBytes_two]
  | case4 a b c rest ih =>
      simp only [encodeBytes_three, List.length_cons, ih]
      omega

theorem encodeBytes_append {front : Bytes} (tail : Bytes) (whole : front.length % 3 = 0) :
    encodeBytes (front ++ tail) = encodeBytes front ++ encodeBytes tail := by
  fun_induction encodeChars front with
  | case1 => rfl
  | case2 a => cases whole
  | case3 a b => cases whole
  | case4 a b c rest ih =>
      have rest_whole : rest.length % 3 = 0 := by
        simp only [List.length_cons] at whole
        omega
      simp only [List.cons_append, encodeBytes_three, ih rest_whole]

/-! ## Whole quads -/

theorem byte_eq {value : Nat} (byte : UInt8) (equal : value = byte.toNat) :
    UInt8.ofNat value = byte := by
  rw [equal, UInt8.ofNat_toNat]

theorem joinThree_encode (a b c : UInt8) :
    joinThree (a.toNat / 4) (a.toNat % 4 * 16 + b.toNat / 16) (b.toNat % 16 * 4 + c.toNat / 64)
      (c.toNat % 64) = [a, b, c] := by
  have second := b.toNat_lt
  have third := c.toNat_lt
  rw [joinThree, byte_eq a (by omega), byte_eq b (by omega), byte_eq c (by omega)]

theorem encodeBytes_joinThree {a b c d : Nat} (ha : a < 64) (hb : b < 64) (hc : c < 64) (hd : d < 64)
    (rest : Bytes) : encodeBytes (joinThree a b c d ++ rest) =
      symbolByte a :: symbolByte b :: symbolByte c :: symbolByte d :: encodeBytes rest := by
  simp only [joinThree, List.cons_append, List.nil_append, encodeBytes_three]
  rw [Utf8.toNat_byte (by omega), Utf8.toNat_byte (by omega), Utf8.toNat_byte (by omega)]
  have first : (a * 4 + b / 16) / 4 = a := by omega
  have second : (a * 4 + b / 16) % 4 * 16 + (b % 16 * 16 + c / 4) / 16 = b := by omega
  have third : (b % 16 * 16 + c / 4) % 16 * 4 + (c % 4 * 64 + d) / 64 = c := by omega
  have fourth : (c % 4 * 64 + d) % 64 = d := by omega
  rw [first, second, third, fourth]

theorem decodeQuads_encodeBytes (offset : Nat) {front : Bytes} (whole : front.length % 3 = 0) :
    decodeQuads offset (encodeBytes front) = .ok front := by
  fun_induction encodeChars front generalizing offset with
  | case1 => rfl
  | case2 a => cases whole
  | case3 a b => cases whole
  | case4 a b c rest ih =>
      have first := a.toNat_lt
      have second := b.toNat_lt
      have third := c.toNat_lt
      have rest_whole : rest.length % 3 = 0 := by
        simp only [List.length_cons] at whole
        omega
      rw [encodeBytes_three, decodeQuads, sextet_symbolByte (by omega), ok_bind,
        sextet_symbolByte (by omega), ok_bind, sextet_symbolByte (by omega), ok_bind,
        sextet_symbolByte (by omega), ok_bind, ih _ rest_whole, joinThree_encode]
      rfl

theorem eq_encodeBytes_of_decodeQuads {offset : Nat} {input front : Bytes}
    (whole : input.length % 4 = 0) (read : decodeQuads offset input = .ok front) :
    input = encodeBytes front ∧ front.length % 3 = 0 := by
  fun_induction decodeQuads offset input generalizing front with
  | case1 offset a b c d rest ih =>
      simp only [bind_eq_ok, pure_eq_ok, sextet_eq_ok] at read
      obtain ⟨first, readA, second, readB, third, readC, fourth, readD, tail, readRest, rfl⟩ := read
      have rest_whole : rest.length % 4 = 0 := by
        simp only [List.length_cons] at whole
        omega
      obtain ⟨rest_eq, tail_whole⟩ := ih rest_whole readRest
      obtain ⟨rfl, ha⟩ := symbolByte_of_sextet? readA
      obtain ⟨rfl, hb⟩ := symbolByte_of_sextet? readB
      obtain ⟨rfl, hc⟩ := symbolByte_of_sextet? readC
      obtain ⟨rfl, hd⟩ := symbolByte_of_sextet? readD
      refine ⟨?_, ?_⟩
      · rw [encodeBytes_joinThree ha hb hc hd, ← rest_eq]
      · simp only [joinThree, List.cons_append, List.nil_append, List.length_cons]
        omega
  | case2 input offset few =>
      cases read
      match input, few with
      | [], _ => exact ⟨rfl, rfl⟩
      | [_], _ => cases whole
      | [_, _], _ => cases whole
      | [_, _, _], _ => cases whole
      | a :: b :: c :: d :: rest, few => exact (few a b c d rest rfl).elim

/-! ## The last quad -/

theorem scanLast_padded {offset index place : Nat} (quad : LastQuad) {result : LastQuad}
    {bytes : Bytes} (padded : quad.padAt = some place)
    (read : scanLast offset index quad bytes = .ok result) : result.padAt = some place := by
  fun_induction scanLast offset index quad bytes with
  | case1 index quad => rw [← Except.ok.inj read, padded]
  | case2 index quad rest early => cases read
  | case3 index quad rest late ih => exact ih (by simp [padded]) read
  | case4 index quad byte rest foreign place held => cases read
  | case5 index quad byte rest foreign unpadded ih =>
      rw [unpadded] at padded
      cases padded

theorem scanLast_unpadded {offset index : Nat} {quad result : LastQuad} {bytes : Bytes}
    (read : scanLast offset index quad bytes = .ok result) (unpadded : result.padAt = none) :
    ∃ values : List Nat, (∀ value ∈ values, value < 64) ∧ bytes = values.map symbolByte ∧
      result.values = quad.values ++ values := by
  fun_induction scanLast offset index quad bytes with
  | case1 index quad =>
      cases read
      exact ⟨[], by simp, rfl, by simp⟩
  | case2 index quad rest early => cases read
  | case3 index quad rest late ih =>
      have held : (quad.padAt.or (some index)).isSome := by cases quad.padAt <;> rfl
      obtain ⟨place, padded⟩ := Option.isSome_iff_exists.1 held
      rw [scanLast_padded { quad with padAt := quad.padAt.or (some index) } padded read] at unpadded
      cases unpadded
  | case4 index quad byte rest foreign place held => cases read
  | case5 index quad byte rest foreign none_yet ih =>
      obtain ⟨value, symbolRead, restRead⟩ := bind_eq_ok.1 read
      obtain ⟨rfl, small⟩ := symbolByte_of_sextet? (sextet_eq_ok.1 symbolRead)
      obtain ⟨values, smalls, rfl, held⟩ := ih value restRead
      refine ⟨value :: values, ?_, rfl, by simp [held]⟩
      intro other member
      rcases List.mem_cons.1 member with rfl | member
      · exact small
      · exact smalls other member

theorem scanLast_symbols (offset index : Nat) (held : List Nat) {values : List Nat}
    (smalls : ∀ value ∈ values, value < 64) :
    scanLast offset index ⟨held, none⟩ (values.map symbolByte) = .ok ⟨held ++ values, none⟩ := by
  induction values generalizing index held with
  | nil => simp [scanLast]
  | cons value values ih =>
      have small : value < 64 := smalls value (by simp)
      have tail := ih (index + 1) (held ++ [value]) fun other member => smalls other (by simp [member])
      rw [List.map_cons, scanLast, if_neg (symbolByte_ne_pad small), sextet_symbolByte small, ok_bind,
        tail, List.append_assoc]
      rfl

theorem encodeBytes_joinLast {values : List Nat} (smalls : ∀ value ∈ values, value < 64)
    (enough : 2 ≤ values.length) (few : values.length ≤ 4) (noneSpare : spareBits values = 0) :
    encodeBytes (joinLast values) = values.map symbolByte := by
  match values with
  | [] | [_] => simp at enough
  | [a, b] =>
      have ha : a < 64 := smalls a (by simp)
      have hb : b < 64 := smalls b (by simp)
      simp only [spareBits] at noneSpare
      simp only [joinLast, encodeBytes_one, List.map_cons, List.map_nil]
      rw [Utf8.toNat_byte (by omega)]
      have first : (a * 4 + b / 16) / 4 = a := by omega
      have second : (a * 4 + b / 16) % 4 * 16 = b := by omega
      rw [first, second]
  | [a, b, c] =>
      have ha : a < 64 := smalls a (by simp)
      have hb : b < 64 := smalls b (by simp)
      have hc : c < 64 := smalls c (by simp)
      simp only [spareBits] at noneSpare
      simp only [joinLast, encodeBytes_two, List.map_cons, List.map_nil]
      rw [Utf8.toNat_byte (by omega), Utf8.toNat_byte (by omega)]
      have first : (a * 4 + b / 16) / 4 = a := by omega
      have second : (a * 4 + b / 16) % 4 * 16 + (b % 16 * 16 + c / 4) / 16 = b := by omega
      have third : (b % 16 * 16 + c / 4) % 16 * 4 = c := by omega
      rw [first, second, third]
  | [a, b, c, d] =>
      have four := encodeBytes_joinThree (smalls a (by simp)) (smalls b (by simp))
        (smalls c (by simp)) (smalls d (by simp)) []
      rw [List.append_nil] at four
      exact four
  | _ :: _ :: _ :: _ :: _ :: _ =>
      simp only [List.length_cons] at few
      omega

theorem eq_encodeBytes_of_decodeLast {offset : Nat} {leftover tail : Bytes}
    (few : leftover.length ≤ 4) (read : decodeLast offset leftover = .ok tail) :
    leftover = encodeBytes tail := by
  obtain ⟨quad, scanned, joined⟩ := bind_eq_ok.1 read
  split at joined
  · next empty =>
      cases joined
      exact empty
  · split at joined
    · cases joined
    · next enough =>
        split at joined
        · cases joined
        · next unpadded =>
            split at joined
            · cases joined
            · next noneSpare =>
                obtain ⟨values, smalls, rfl, held⟩ :=
                  scanLast_unpadded scanned (by simpa using unpadded)
                rw [List.nil_append] at held
                rw [held] at enough noneSpare joined
                rw [← pure_eq_ok.1 joined, encodeBytes_joinLast smalls (by omega)
                  (by simpa using few) (by omega)]

theorem decodeLast_symbols (offset : Nat) (values : List Nat)
    (smalls : ∀ value ∈ values, value < 64) (enough : 2 ≤ values.length)
    (noneSpare : spareBits values = 0) :
    decodeLast offset (values.map symbolByte) = .ok (joinLast values) := by
  have filled : values.map symbolByte ≠ [] := by
    intro empty
    rw [List.map_eq_nil_iff.1 empty] at enough
    simp at enough
  rw [decodeLast, scanLast_symbols offset 0 [] smalls, ok_bind, if_neg filled, List.nil_append,
    if_neg (Nat.not_lt.2 enough), if_neg (by simp), if_neg (not_not_intro noneSpare)]
  rfl

theorem decodeLast_encodeBytes (offset : Nat) {tail : Bytes} (few : tail.length ≤ 3) :
    decodeLast offset (encodeBytes tail) = .ok tail := by
  match tail with
  | [] => rfl
  | [a] =>
      have first := a.toNat_lt
      have read := decodeLast_symbols offset [a.toNat / 4, a.toNat % 4 * 16]
        (by simp; omega) (by simp) (by simp only [spareBits]; omega)
      rw [encodeBytes_one]
      simp only [List.map_cons, List.map_nil] at read
      rw [read, joinLast, byte_eq a (by omega)]
  | [a, b] =>
      have first := a.toNat_lt
      have second := b.toNat_lt
      have read := decodeLast_symbols offset [a.toNat / 4,
        a.toNat % 4 * 16 + b.toNat / 16, b.toNat % 16 * 4] (by simp; omega) (by simp)
        (by simp only [spareBits]; omega)
      rw [encodeBytes_two]
      simp only [List.map_cons, List.map_nil] at read
      rw [read, joinLast, byte_eq a (by omega), byte_eq b (by omega)]
  | [a, b, c] =>
      have first := a.toNat_lt
      have second := b.toNat_lt
      have third := c.toNat_lt
      have read := decodeLast_symbols offset [a.toNat / 4,
        a.toNat % 4 * 16 + b.toNat / 16, b.toNat % 16 * 4 + c.toNat / 64, c.toNat % 64]
        (by simp; omega) (by simp) rfl
      rw [encodeBytes_three]
      simp only [List.map_cons, List.map_nil] at read
      rw [encodeBytes_nil, read, joinLast, joinThree_encode]
  | _ :: _ :: _ :: _ :: _ =>
      simp only [List.length_cons] at few
      omega

/-! ## Whole texts -/

theorem checkStray_eq_ok {input : Bytes} (sized : input.length % 4 ≠ 1) :
    checkStray input = .ok () := by
  unfold checkStray
  cases input.getLast? with
  | none => rfl
  | some byte => exact if_neg fun stray => sized stray.1

theorem decode_groups {front : Bytes} (tail : Bytes) (whole : front.length % 3 = 0)
    (few : tail.length ≤ 3)
    (some_last : 0 < tail.length ∨ front.length = 0) :
    decode (encodeBytes front ++ encodeBytes tail) = .ok (front ++ tail) := by
  have cut : ((encodeBytes front ++ encodeBytes tail).length - 1) / 4 * 4 =
      (encodeBytes front).length := by
    simp only [List.length_append, length_encodeBytes]
    omega
  have sized : (encodeBytes front ++ encodeBytes tail).length % 4 ≠ 1 := by
    simp only [List.length_append, length_encodeBytes]
    omega
  unfold decode
  simp only [checkStray_eq_ok sized, ok_bind, cut, List.take_left, List.drop_left,
    decodeQuads_encodeBytes 0 whole, decodeLast_encodeBytes _ few]
  rfl

theorem decode_encodeBytes (bytes : Bytes) : decode (encodeBytes bytes) = .ok bytes := by
  let count := (bytes.length - 1) / 3 * 3
  have whole : (bytes.take count).length % 3 = 0 := by
    rw [List.length_take]
    omega
  have read := decode_groups (bytes.drop count) whole
    (by rw [List.length_drop]; omega) (by rw [List.length_drop, List.length_take]; omega)
  rwa [← encodeBytes_append _ whole, List.take_append_drop] at read

theorem eq_encodeBytes_of_decode {input bytes : Bytes} (read : decode input = .ok bytes) :
    input = encodeBytes bytes := by
  simp only [decode, bind_eq_ok, pure_eq_ok] at read
  obtain ⟨-, -, front, quads, tail, last, rfl⟩ := read
  have whole : (input.take ((input.length - 1) / 4 * 4)).length % 4 = 0 := by
    rw [List.length_take]
    omega
  have few : (input.drop ((input.length - 1) / 4 * 4)).length ≤ 4 := by
    rw [List.length_drop]
    omega
  obtain ⟨front_eq, front_whole⟩ := eq_encodeBytes_of_decodeQuads whole quads
  rw [encodeBytes_append tail front_whole, ← front_eq, ← eq_encodeBytes_of_decodeLast few last,
    List.take_append_drop]

theorem encode_bytes (bytes : Bytes) : Utf8.encode (encode bytes) = encodeBytes bytes :=
  Utf8.encode_ofList _

theorem decode_eq_ok_iff {text : String} {bytes : Bytes} :
    decode (Utf8.encode text) = .ok bytes ↔ text = encode bytes := by
  constructor
  · intro read
    apply Utf8.encode_injective
    rw [encode_bytes, eq_encodeBytes_of_decode read]
  · rintro rfl
    rw [encode_bytes, decode_encodeBytes]

theorem encode_injective : Function.Injective encode := by
  intro left right equal
  have read := decode_eq_ok_iff.2 equal
  rw [decode_eq_ok_iff.2 rfl] at read
  exact Except.ok.inj read

end Bearer.Base64Url
