import Bearer.Json.Reader.Number
import Bearer.Json.Reader.Text

namespace Bearer.Json.Reader

def addMember (value : Reader Value) (members : Members) (name : String) : Reader Members := do
  readColon
  return members.insert name (← value)

def value (depth : Nat) : Reader Value := do
  match ← peekSolid with
  | none => failAhead .endOfValue
  | some byte =>
      if byte = 110 then do skipOne; word [117, 108, 108]; return .null
      else if byte = 116 then do skipOne; word [114, 117, 101]; return .bool true
      else if byte = 102 then do skipOne; word [97, 108, 115, 101]; return .bool false
      else if startsNumber byte then return .number (← number)
      else if byte = quote then do skipOne; return .string (← quotedText)
      else if byte = openBracket then
        match depth with
        | 0 => failAhead .tooDeep
        | depth + 1 => do
            skipOne
            let list ← items (value depth) (← rounds) true
            closeList
            return .array list
      else if byte = openBrace then
        match depth with
        | 0 => failAhead .tooDeep
        | depth + 1 => do
            skipOne
            let members ← foldMembers (addMember (value depth)) (← rounds) true []
            skipOne
            return .object members
      else failAhead .expectedValue

/-! ## Values of one kind -/

/-- A fault for a value that is none of the expected. It is placed behind a value that has no parts
and before one that has. -/
def mismatch {α : Type} (expected : String) : Reader α := do
  match ← peek with
  | none => failAhead .endOfValue
  | some byte =>
      if byte = openBracket then fail (.invalidType .sequence expected)
      else if byte = openBrace then fail (.invalidType .map expected)
      else
        match ← value 0 with
        | .null => fail (.invalidType .null expected)
        | .bool truth => fail (.invalidType (.bool truth) expected)
        | .number held => fail (.invalidType (.number held) expected)
        | .string text => fail (.invalidType (.string text) expected)
        | .array _ => fail (.invalidType .sequence expected)
        | .object _ => fail (.invalidType .map expected)

def textOf (expected : String) : Reader String := do
  if (← peekSolid) = some quote then do
    skipOne
    quotedText
  else mismatch expected

def string : Reader String := textOf "a string"

def meaning {α : Type} (expected : String) (read : String → Except String α) : Reader α := do
  match read (← textOf expected) with
  | .ok found => return found
  | .error reason => fail (.refused reason)

def nullable {α : Type} (read : Reader α) : Reader (Option α) := do
  if (← peekSolid) = some 110 then do
    skipOne
    word [117, 108, 108]
    return none
  else return some (← read)

def int64 : Reader Int := do
  match ← peekSolid with
  | none => failAhead .endOfValue
  | some byte =>
      if startsNumber byte then
        match ← number with
        | .int held =>
            if held < Nat.pow 2 63 then return held
            else fail (.invalidValue (.number (.int held)) "i64")
        | .float held => fail (.invalidType (.number (.float held)) "i64")
      else mismatch "i64"

/-! ## Whole texts -/

def run {α : Type} (read : Reader α) (text : Bytes) : Except Fault α :=
  match read text with
  | .error fault => .error fault
  | .ok (found, rest) =>
      match rest.dropWhile isBlank with
      | [] => .ok found
      | more => failAhead .trailingCharacters more |>.map Prod.fst

def maxDepth : Nat := 127

end Bearer.Json.Reader

namespace Bearer.Json

def parse (text : String) : Except Fault Value :=
  Reader.run (Reader.value Reader.maxDepth) (Utf8.encode text)

end Bearer.Json
