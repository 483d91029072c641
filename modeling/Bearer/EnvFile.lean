import Bearer.Host
import Bearer.Text.Blank
import Bearer.Text.Property
import Bearer.Text.Utf8

namespace Bearer.EnvFile

/-! ## Lines -/

inductive LineState where
  | complete
  | escaped
  | single
  | singleEscaped
  | double
  | doubleEscaped
  | blank
  | comment
  deriving DecidableEq

def LineState.outside (c : Char) : LineState :=
  if c = '\\' then .escaped
  else if c = '"' then .double
  else if c = Char.ofNat 39 then .single
  else .complete

def LineState.next (state : LineState) (c : Char) : LineState :=
  match state with
  | .blank => if c = '#' then .comment else .outside c
  | .complete =>
      if Text.isBlank c ∧ c ≠ '\n' ∧ c ≠ '\r' then .blank else .outside c
  | .escaped => .complete
  | .double => if c = '\\' then .doubleEscaped else if c = '"' then .complete else .double
  | .doubleEscaped => .double
  | .single =>
      if c = '\\' then .singleEscaped else if c = Char.ofNat 39 then .complete else .single
  | .singleEscaped => .single
  | .comment => .comment

def scan : LineState → List Char → LineState × List Char
  | state, [] => (state, [])
  | state, c :: rest =>
      if state.next c = .comment then (.comment, [])
      else
        let (final, kept) := scan (state.next c) rest
        (final, c :: kept)

def physicalLines : Bytes → List Bytes
  | [] => []
  | byte :: rest =>
      if byte = 0x0a then [byte] :: physicalLines rest
      else match physicalLines rest with
        | [] => [[byte]]
        | line :: lines => (byte :: line) :: lines

def dropBreak (line : List Char) : List Char :=
  match line.reverse with
  | '\n' :: '\r' :: rest => rest.reverse
  | '\n' :: rest => rest.reverse
  | _ => line

/-- Joins lines as long as a quote, an escape or a blank leaves the end open, and drops comments.
Bytes that are no text end the file, and so does an end that is left open. -/
def logicalLines (state : LineState) (held : List Char) : List Bytes → List (Option (List Char))
  | [] => if state = .complete then [] else [none]
  | bytes :: lines =>
      match Utf8.decodeChars bytes with
      | none => [none]
      | some line =>
          if (Text.trimStart (held ++ line)).head? = some '#' then
            some [] :: logicalLines .complete [] lines
          else
            match scan state line with
            | (.comment, kept) => some (held ++ kept) :: logicalLines .complete [] lines
            | (.complete, _) =>
                some (dropBreak (held ++ line)) :: logicalLines .complete [] lines
            | (next, _) => logicalLines next (held ++ line) lines

/-! ## Values -/

inductive ValueState where
  | outside
  | single
  | double
  | escaped (isQuoted : Bool)
  | name (isQuoted : Bool) (chars : List Char)
  | braced (isQuoted : Bool) (chars : List Char)
  | finished

def ValueState.unquoted (isQuoted : Bool) : ValueState := if isQuoted then .double else .outside

def escapes : List (Char × Char) := [
  ('\\', '\\'), (Char.ofNat 39, Char.ofNat 39), ('"', '"'), ('$', '$'), (' ', ' '), ('n', '\n')]

def substitute (known : Variables) (name : List Char) : List Char :=
  ((known.get? (String.ofList name)).getD "").toList

def valueFrom (known : Variables) : ValueState → List Char → Option (List Char)
  | .outside, [] => some []
  | .escaped false, [] => some []
  | .finished, [] => some []
  | .name false chars, [] => some (substitute known chars)
  | _, [] => none
  | .finished, c :: rest =>
      if c = ' ' ∨ c = '\t' then valueFrom known .finished rest
      else if c = '#' then some []
      else none
  | .escaped isQuoted, c :: rest => do
      let plain ← escapes.lookup c
      return plain :: (← valueFrom known (.unquoted isQuoted) rest)
  | .single, c :: rest =>
      if c = Char.ofNat 39 then valueFrom known .outside rest
      else (valueFrom known .single rest).map (c :: ·)
  | .name isQuoted chars, c :: rest =>
      if Text.isAlphanumeric c then valueFrom known (.name isQuoted (chars ++ [c])) rest
      else if c = '\x7b' ∧ chars = [] then valueFrom known (.braced isQuoted []) rest
      else if c = '$' then do
        return substitute known chars ++ (← valueFrom known (.name isQuoted []) rest)
      else do
        return substitute known chars ++ c :: (← valueFrom known (.unquoted isQuoted) rest)
  | .braced isQuoted chars, c :: rest =>
      if c = '\x7d' then do
        return substitute known chars ++ (← valueFrom known (.unquoted isQuoted) rest)
      else valueFrom known (.braced isQuoted (chars ++ [c])) rest
  | .double, c :: rest =>
      if c = '$' then valueFrom known (.name true []) rest
      else if c = '"' then valueFrom known .outside rest
      else if c = '\\' then valueFrom known (.escaped true) rest
      else (valueFrom known .double rest).map (c :: ·)
  | .outside, c :: rest =>
      if c = '$' then valueFrom known (.name false []) rest
      else if c = Char.ofNat 39 then valueFrom known .single rest
      else if c = '"' then valueFrom known .double rest
      else if c = '\\' then valueFrom known (.escaped false) rest
      else if c = ' ' ∨ c = '\t' then valueFrom known .finished rest
      else (valueFrom known .outside rest).map (c :: ·)

/-! ## Definitions -/

def startsName (c : Char) : Bool := c.isAlpha || c == '_'

def isNameChar (c : Char) : Bool := c.isAlphanum || c == '_' || c == '.'

def splitName (line : List Char) : Option (List Char × List Char) :=
  if line.head?.any startsName then
    some (line.takeWhile isNameChar, Text.trimStart (line.dropWhile isNameChar))
  else none

def splitDefinition (line : List Char) : Option (List Char × List Char) := do
  let (name, rest) ← splitName line
  match rest with
  | '=' :: value => return (name, value)
  | _ =>
      guard (name = "export".toList)
      let (name, rest) ← splitName rest
      match rest with
      | '=' :: value => return (name, value)
      | _ => failure

def definition? (known : Variables) (line : List Char) :
    Option (Option (String × String)) := do
  let line := Text.trim line
  if line.isEmpty ∨ line.head? = some '#' then return none
  let (name, rest) ← splitDefinition line
  let rest := Text.trimStart rest
  if rest.isEmpty ∨ rest.head? = some '#' then return some (String.ofList name, "")
  let value ← valueFrom known .outside rest
  return some (String.ofList name, String.ofList value)

/-- Follows the lines up to the first that is out of form. Values with a NUL character are not
considered, as in `Variables.define`. -/
def loadLines (known : Variables) : List (Option (List Char)) → Variables
  | [] => known
  | none :: _ => known
  | some line :: lines =>
      match definition? known line with
      | none => known
      | some none => loadLines known lines
      | some (some (name, value)) => loadLines (known.define name value) lines

def byteOrderMark : Bytes := [0xef, 0xbb, 0xbf]

def load (known : Variables) (content : Bytes) : Variables :=
  let content := if byteOrderMark.isPrefixOf content then content.drop 3 else content
  loadLines known (logicalLines .complete [] (physicalLines content))

end Bearer.EnvFile
