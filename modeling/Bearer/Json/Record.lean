import Bearer.Json.Reader.Skip
import Bearer.Json.Reader.Value

namespace Bearer.Json.Reader

variable {α δ : Type}

def once (name : String) (before : Option α) (read : Reader α) : Reader (Option α) := do
  if before.isSome then refuseObject (.duplicateField name)
  else do
    readColon
    return some (← read)

def passOver : Reader Unit := do
  readColon
  skipValue

def need (name : String) : Option α → Reader α
  | some found => return found
  | none => refuseObject (.missingField name)

def item? (first : Bool) (read : Reader α) : Reader (Option α) := do
  if ← moreItems first then return some (← read) else return none

def itemAt (index : Nat) (expected : String) (read : Reader α) : Reader α := do
  match ← item? (index == 0) read with
  | some found => return found
  | none => refuseList (.invalidLength index expected)

def object (member : δ → String → Reader δ) (start : δ) (complete : δ → Reader α) : Reader α := do
  skipOne
  let draft ← foldMembers member (← rounds) true start
  let found ← complete draft
  skipOne
  return found

def record (expected : String) (members : Reader α) (list : Reader α) : Reader α := do
  let byte ← peekSolid
  if byte = some openBrace then members
  else if byte = some openBracket then do
    skipOne
    let found ← list
    closeList
    return found
  else mismatch expected

end Bearer.Json.Reader
