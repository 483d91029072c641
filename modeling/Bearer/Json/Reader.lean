import Bearer.Json.Fault

namespace Bearer.Json

abbrev Reader := StateT Bytes (Except Fault)

namespace Reader

variable {α σ : Type}

def fail (cause : Cause) : Reader α := fun rest => .error ⟨cause, rest.length⟩

def failAhead (cause : Cause) : Reader α := fun rest => .error ⟨cause, rest.length - 1⟩

def peek : Reader (Option UInt8) := fun rest => .ok (rest.head?, rest)

def next? : Reader (Option UInt8) := fun rest => .ok (rest.head?, rest.tail)

def skipOne : Reader Unit := fun rest => .ok ((), rest.tail)

def rounds : Reader Nat := fun rest => .ok (rest.length + 1, rest)

def isBlank (byte : UInt8) : Bool := byte == 32 || byte == 10 || byte == 13 || byte == 9

def skipBlanks : Reader Unit := fun rest => .ok ((), rest.dropWhile isBlank)

def peekSolid : Reader (Option UInt8) := do
  skipBlanks
  peek

/-! ## Punctuation -/

def comma : UInt8 := 44
def colon : UInt8 := 58
def quote : UInt8 := 34
def openBracket : UInt8 := 91
def closeBracket : UInt8 := 93
def openBrace : UInt8 := 123
def closeBrace : UInt8 := 125

def word : Bytes → Reader Unit
  | [] => pure ()
  | letter :: letters => do
      match ← next? with
      | none => fail .endOfValue
      | some byte => if byte = letter then word letters else fail .expectedWord

def readColon : Reader Unit := do
  match ← peekSolid with
  | none => failAhead .endOfObject
  | some byte => if byte = colon then skipOne else failAhead .expectedColon

/-! ## Lists -/

def moreItems (first : Bool) : Reader Bool := do
  match ← peekSolid with
  | none => failAhead .endOfList
  | some byte =>
      if byte = closeBracket then return false
      else if first then return true
      else if byte = comma then do
        skipOne
        match ← peekSolid with
        | none => failAhead .endOfValue
        | some byte =>
            if byte = closeBracket then failAhead .trailingComma else return true
      else failAhead .expectedCommaOrBracket

def items (item : Reader α) : Nat → Bool → Reader (List α)
  | 0, _ => fail .endOfList
  | rounds + 1, first => do
      if ← moreItems first then
        let head ← item
        return head :: (← items item rounds false)
      else return []

def closeList : Reader Unit := do
  match ← peekSolid with
  | none => failAhead .endOfList
  | some byte =>
      if byte = closeBracket then skipOne
      else if byte = comma then do
        skipOne
        match ← peekSolid with
        | some byte =>
            if byte = closeBracket then failAhead .trailingComma else failAhead .trailingCharacters
        | none => failAhead .trailingCharacters
      else failAhead .trailingCharacters

def refuseList (cause : Cause) : Reader α := do
  if (← peekSolid) = some closeBracket then skipOne
  fail cause

/-! ## Objects -/

def moreMembers (first : Bool) : Reader Bool := do
  match ← peekSolid with
  | none => failAhead .endOfObject
  | some byte =>
      if byte = closeBrace then return false
      else if first then
        if byte = quote then return true else failAhead .nameNotString
      else if byte = comma then do
        skipOne
        match ← peekSolid with
        | none => failAhead .endOfValue
        | some byte =>
            if byte = quote then return true
            else if byte = closeBrace then failAhead .trailingComma
            else failAhead .nameNotString
      else failAhead .expectedCommaOrBrace

def refuseObject (cause : Cause) : Reader α := do
  if (← peekSolid) = some closeBrace then skipOne
  fail cause

end Reader

end Bearer.Json
