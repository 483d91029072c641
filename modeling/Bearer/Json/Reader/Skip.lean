import Bearer.Json.Reader.Number
import Bearer.Json.Reader.Text

namespace Bearer.Json.Reader

/-! ## Numbers and strings -/

def skipExponent : Reader Unit := do
  skipOne
  let sign ← peek
  if sign = some 43 ∨ sign = some 45 then skipOne
  match ← next? with
  | none => fail .invalidNumber
  | some byte => if isDigit byte then discard digitRun else fail .invalidNumber

def skipFraction : Reader Unit := do
  skipOne
  if (← digitRun).isEmpty then failAhead .invalidNumber
  else if isExponentMark (← peek) then skipExponent
  else return ()

def skipDigits : Reader Unit := do
  match ← next? with
  | none => fail .invalidNumber
  | some byte =>
      if byte = 48 then
        if (← peek).any isDigit then failAhead .invalidNumber
      else if isDigit byte then discard digitRun
      else fail .invalidNumber
  let after ← peek
  if after = some 46 then skipFraction
  else if isExponentMark after then skipExponent
  else return ()

def skipNumber : Reader Unit := do
  if (← peek) = some 45 then skipOne
  skipDigits

def skipEscape : Reader Unit := do
  match ← next? with
  | none => fail .endOfString
  | some byte =>
      if (simpleEscape? byte).isSome then return ()
      else if byte = 117 then discard hexQuad
      else fail .invalidEscape

def skipText : Nat → Reader Unit
  | 0 => fail .endOfString
  | rounds + 1 => do
      match ← peek with
      | none => fail .endOfString
      | some byte =>
          if byte < 32 then fail .controlCharacter
          else do
            skipOne
            if byte = quote then return ()
            else if byte = 92 then do
              skipEscape
              skipText rounds
            else skipText rounds

/-! ## Lists and objects -/

inductive Enclosure where
  | list
  | object
  deriving DecidableEq

def Enclosure.closing : Enclosure → UInt8
  | .list => closeBracket
  | .object => closeBrace

def Enclosure.unfinished : Enclosure → Cause
  | .list => .endOfList
  | .object => .endOfObject

def Enclosure.unseparated : Enclosure → Cause
  | .list => .expectedCommaOrBracket
  | .object => .expectedCommaOrBrace

def skipHead : Reader (Option Enclosure) := do
  match ← peekSolid with
  | none => failAhead .endOfValue
  | some byte =>
      if byte = 110 then do skipOne; word [117, 108, 108]; return none
      else if byte = 116 then do skipOne; word [114, 117, 101]; return none
      else if byte = 102 then do skipOne; word [97, 108, 115, 101]; return none
      else if startsNumber byte then do skipNumber; return none
      else if byte = quote then do skipOne; skipText (← rounds); return none
      else if byte = openBracket then do skipOne; return some .list
      else if byte = openBrace then do skipOne; return some .object
      else failAhead .expectedValue

def skipClosings (opened : Bool) : List Enclosure → Reader (List Enclosure)
  | [] => return []
  | inner :: outer => do
      match ← peekSolid with
      | none => failAhead inner.unfinished
      | some byte =>
          if byte = inner.closing then do
            skipOne
            skipClosings false outer
          else if opened then return inner :: outer
          else if byte = comma then do
            skipOne
            return inner :: outer
          else failAhead inner.unseparated

def skipName : Reader Unit := do
  match ← peekSolid with
  | none => failAhead .endOfObject
  | some byte =>
      if byte = quote then do
        skipOne
        skipText (← rounds)
        readColon
      else failAhead .nameNotString

def skipIn : Nat → List Enclosure → Reader Unit
  | 0, _ => fail .endOfValue
  | rounds + 1, outer => do
      let still ←
        match ← skipHead with
        | some opened => skipClosings true (opened :: outer)
        | none => skipClosings false outer
      match still with
      | [] => return ()
      | .object :: _ => do
          skipName
          skipIn rounds still
      | .list :: _ => skipIn rounds still

def skipValue : Reader Unit := do skipIn (← rounds) []

end Bearer.Json.Reader
