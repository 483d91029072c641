import Bearer.Text.Hex
import Bearer.Text.Utf8

namespace Bearer

structure Uuid where
  bytes : Bytes
  length_eq : bytes.length = 16
  deriving DecidableEq

namespace Uuid

def ofBytes? (bytes : Bytes) : Option Uuid :=
  if length : bytes.length = 16 then some ⟨bytes, length⟩ else none

def zero : Uuid := ⟨List.replicate 16 0, by decide⟩

def isNil (id : Uuid) : Bool := id == zero

def ofRandom (bytes : Bytes) (length : bytes.length = 16) : Uuid :=
  ⟨(bytes.modify 6 fun byte => byte % 16 + 0x40).modify 8 fun byte => byte % 64 + 0x80,
    by simp [length]⟩

theorem isNil_ofRandom (bytes : Bytes) (length : bytes.length = 16) :
    (ofRandom bytes length).isNil = false := by
  have marked (byte : UInt8) : byte % 16 + 0x40 ≠ 0 := by
    intro equal
    have sum := congrArg UInt8.toNat equal
    simp [UInt8.toNat_add, UInt8.toNat_mod] at sum
    omega
  simp only [isNil, beq_eq_false_iff_ne, ne_eq]
  intro equal
  have sixth := congrArg (fun id : Uuid => id.bytes[6]?) equal
  simp [ofRandom, zero, length] at sixth
  exact marked _ sixth

def version (id : Uuid) : Nat := (id.bytes.getD 6 0).toNat / 16

/-! ## Writing -/

def hexChars (bytes : Bytes) : List Char := bytes.flatMap Hex.encodeByte

def chars (id : Uuid) : List Char :=
  hexChars (id.bytes.take 4) ++ '-' :: hexChars ((id.bytes.drop 4).take 2) ++
    '-' :: hexChars ((id.bytes.drop 6).take 2) ++ '-' :: hexChars ((id.bytes.drop 8).take 2) ++
    '-' :: hexChars (id.bytes.drop 10)

def text (id : Uuid) : String := String.ofList id.chars

/-! ## Reading -/

inductive ReadError where
  | character (found : Char) (place : Nat)
  | length (found : Nat)
  | groupCount (found : Nat)
  | groupLength (group expected found : Nat)
  deriving DecidableEq, Repr

def ReadError.message : ReadError → String
  | .character found place => s!"invalid character: found `{found}` at {place}"
  | .length found => s!"invalid length: found {found}"
  | .groupCount found => s!"invalid group count: expected 5, found {found}"
  | .groupLength group expected found =>
      s!"invalid group length in group {group}: expected {expected}, found {found}"

structure Frame where
  inner : List Char
  offset : Nat
  isBare : Bool

def urn : List Char := "urn:uuid:".toList

def frame (chars : List Char) : Frame :=
  if chars.head? = some '\x7b' ∧ chars.getLast? = some '\x7d' then
    ⟨chars.tail.dropLast, 1, false⟩
  else if (chars.take 9).map Char.toLower = urn then ⟨chars.drop 9, 9, false⟩
  else ⟨chars, 0, true⟩

def groups (chars : List Char) : List (List Char) := chars.splitOn '-'

def groupLengths : List Nat := [8, 4, 4, 4, 12]

def foreign? (place : Nat) : List Char → Option ReadError
  | [] => none
  | c :: rest =>
      if c = '-' ∨ (Hex.value? c).isSome then foreign? (place + 1) rest
      else some (.character c place)

def wrongGroup? (index : Nat) : List Nat → List Nat → Option ReadError
  | expected :: more, found :: lengths =>
      if more.isEmpty then none
      else if expected = found then wrongGroup? (index + 1) more lengths
      else some (.groupLength index expected found)
  | _, _ => none

def groupFault (inner : List Char) (offset size : Nat) (isBare : Bool) : ReadError :=
  let lengths := (groups inner).map List.length
  match foreign? offset inner with
  | some fault => fault
  | none =>
      if lengths.length = 1 ∧ isBare then .length size
      else if lengths.length ≠ 5 then .groupCount lengths.length
      else (wrongGroup? 0 groupLengths lengths).getD (.groupLength 4 12 (size - 24))

def sizedGroups? (chars : List Char) (size : Nat) : Option (List Char) :=
  let frame := frame chars
  if size = 36 then some chars
  else if size = 36 + 2 ∧ frame.offset = 1 then some frame.inner
  else if size = 36 + urn.length ∧ frame.offset = urn.length then some frame.inner
  else none

def maxSize : Nat := 36 + urn.length

def fault (chars : List Char) : ReadError :=
  let size := (Utf8.encodeChars chars).length
  if maxSize < size then .length size
  else match sizedGroups? chars size with
    | some inner => groupFault inner 0 size false
    | none =>
        let frame := frame chars
        groupFault frame.inner frame.offset size frame.isBare

def digits? (chars : List Char) : Option Uuid :=
  if chars.length = 32 then (Hex.decodeChars chars).bind ofBytes? else none

def grouped? (chars : List Char) : Option Uuid :=
  let groups := groups chars
  if groups.map List.length = groupLengths then (Hex.decodeChars groups.flatten).bind ofBytes?
  else none

def read? (chars : List Char) : Option Uuid :=
  let frame := frame chars
  (grouped? frame.inner).or (if frame.isBare then digits? frame.inner else none)

def read (text : String) : Except ReadError Uuid :=
  match read? text.toList with
  | some id => .ok id
  | none => .error (fault text.toList)

end Uuid

end Bearer
