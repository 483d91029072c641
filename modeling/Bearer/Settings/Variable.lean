import Bearer.Number.Notation
import Bearer.Settings.Tree
import Bearer.Text.Blank
import Bearer.Text.Hex

namespace Bearer.Settings

/-! ## Values -/

abbrev InlineM := StateT (List Char) Option

namespace Inline

def scalar (value : Scalar) : Tree := .scalar .environment value

def isSpace (c : Char) : Bool :=
  c == ' ' || c == '\t' || c == '\n' || c == '\x0c' || c == '\r'

def isMark (c : Char) : Bool :=
  c == ',' || c == '\x7b' || c == '\x7d' || c == '[' || c == ']'

def isNameChar (c : Char) : Bool := c.isAlphanum || c == '_' || c == '-'

def skipSpace : InlineM Unit := modify (·.dropWhile isSpace)

def takeWhile (test : Char → Bool) : InlineM (List Char) :=
  modifyGet fun rest => (rest.takeWhile test, rest.dropWhile test)

def eat (c : Char) : InlineM Unit := fun rest =>
  match rest with
  | next :: rest => if next = c then some ((), rest) else none
  | [] => none

def eatWord (word : String) : InlineM Bool :=
  modifyGet fun rest =>
    if word.toList.isPrefixOf rest then (true, rest.drop word.length) else (false, rest)

/-! ### Texts -/

def letterEscapes : List (Char × Char) := [
  ('b', '\x08'), ('f', '\x0c'), ('n', '\n'), ('r', '\r'), ('t', '\t'), ('"', '"'), ('\\', '\\')]

def hexEscapes : List (Char × Nat) := [('u', 4), ('U', 8)]

def isTextChar (c : Char) : Bool := c == '\t' || (' ' ≤ c && c != '\x7f')

def upToQuote : (isEscaped : Bool) → List Char → Option (List Char × List Char)
  | _, [] => none
  | isEscaped, c :: rest =>
      if c = '"' && !isEscaped then some ([], rest)
      else do
        let (text, rest) ← upToQuote (c = '\\' && !isEscaped) rest
        return (c :: text, rest)

inductive Escape where
  | outside
  | started
  | digits (count value : Nat)

def unescapedFrom : Escape → List Char → Option (List Char)
  | .outside, [] => some []
  | _, [] => none
  | .outside, c :: rest =>
      if c = '\\' then unescapedFrom .started rest
      else if isTextChar c then (unescapedFrom .outside rest).map (c :: ·)
      else none
  | .started, c :: rest =>
      match letterEscapes.lookup c, hexEscapes.lookup c with
      | some c, _ => (unescapedFrom .outside rest).map (c :: ·)
      | none, some count => unescapedFrom (.digits count 0) rest
      | none, none => none
  | .digits count value, c :: rest =>
      match Hex.value? c with
      | none => none
      | some digit =>
          let value := value * 16 + digit
          if 1 < count then unescapedFrom (.digits (count - 1) value) rest
          else if value.isValidChar then
            (unescapedFrom .outside rest).map (Char.ofNat value :: ·)
          else none

def fitting (size : Nat) : List Char → List Char
  | [] => []
  | c :: rest => if c.utf8Size ≤ size then c :: fitting (size - c.utf8Size) rest else []

/-- The text that is meant. Of what stands in front of the first escape, only so many bytes are kept
as it has characters. -/
def unescaped (chars : List Char) : Option (List Char) := do
  let (plain, rest) := chars.span (· != '\\')
  guard (plain.all isTextChar)
  if rest.isEmpty then return plain
  else return fitting plain.length plain ++ (← unescapedFrom .outside rest)

def quoted : InlineM String := do
  eat '"'
  let chars ← upToQuote false
  match unescaped chars with
  | some text => return String.ofList text
  | none => failure

def anyChar : InlineM Char := fun rest =>
  match rest with
  | c :: rest => some (c, rest)
  | [] => none

def lone : InlineM Char := do
  eat (Char.ofNat 39)
  let found ← anyChar
  eat (Char.ofNat 39)
  return found

def bareScalar (chars : List Char) : Scalar :=
  match (if chars.contains '.' then Binary64.ofText? chars else none) with
  | some value => .float value
  | none =>
      match Text.natural (Nat.pow 2 64) chars, Text.integer (Nat.pow 2 63) chars with
      | .ok value, _ => .unsigned value
      | .error _, .ok value => .signed value
      | .error _, .error _ => .text (String.ofList chars)

def name : InlineM String := do
  if (← get).head? = some '"' then quoted
  else
    let chars ← takeWhile isNameChar
    if chars.isEmpty then failure else return String.ofList chars

/-! ### Lists and tables -/

def core (table : InlineM (List (String × Tree))) (list : InlineM (List Tree)) : InlineM Tree := do
  if ← eatWord "true" then return scalar (.bool true)
  else if ← eatWord "false" then return scalar (.bool false)
  else match (← get).head? with
    | some '\x7b' => do
        eat '\x7b'
        return .table .environment (Members.ofList (← table))
    | some '[' => do
        eat '['
        return .list .environment (← list)
    | some '"' => do return .text .environment (← quoted)
    | some c => do
        if c = Char.ofNat 39 then return scalar (.char (← lone))
        else return scalar (bareScalar (Text.trim (← takeWhile fun c => !isMark c)))
    | none => return scalar (bareScalar [])

/-! The first argument bounds the number of calls. -/

mutual

def value (fuel : Nat) : InlineM Tree :=
  match fuel with
  | 0 => failure
  | fuel + 1 => do
      skipSpace
      let tree ← core (members fuel) (items fuel)
      skipSpace
      return tree

def items (fuel : Nat) : InlineM (List Tree) :=
  match fuel with
  | 0 => failure
  | fuel + 1 => do
      if ← eatWord "]" then return []
      let item ← value fuel
      if ← eatWord "," then return item :: (← items fuel)
      else do
        eat ']'
        return [item]

def members (fuel : Nat) : InlineM (List (String × Tree)) :=
  match fuel with
  | 0 => failure
  | fuel + 1 => do
      if ← eatWord "\x7d" then return []
      skipSpace
      let key ← name
      skipSpace
      eat '='
      let member := (key, ← value fuel)
      if ← eatWord "," then return member :: (← members fuel)
      else do
        eat '\x7d'
        return [member]

end

def read (text : String) : Tree :=
  match (value (2 * text.length + 2)).run text.toList with
  | some (tree, []) => tree
  | _ => .text .environment text

end Inline

/-! ## Names -/

def variableStart : String := "SEALED_TOKEN_"

/-- Cuts wherever two underscores stand; a point does the same. -/
def nameSteps : List Char → List (List Char)
  | [] => [[]]
  | '_' :: '_' :: rest => [] :: nameSteps rest
  | c :: rest =>
      if c = '.' then [] :: nameSteps rest
      else match nameSteps rest with
        | [] => [[c]]
        | step :: steps => (c :: step) :: steps

/-- The way to the setting that a variable is for, if it is for any. White space around the name,
or behind its start, is no part of it. -/
def settingPath? (name : String) : Option (List String) :=
  let name := Text.trim name.toList
  let size := variableStart.length
  if (String.ofList (name.take size)).toUpper = variableStart then
    let steps := nameSteps (Text.trim (name.drop size))
    if steps.any List.isEmpty then none
    else some (steps.map fun step => (String.ofList step).toLower)
  else none

/-- The settings of all variables; a later one counts where two disagree. -/
def Tree.ofVariables (listed : List (String × String)) : Tree :=
  listed.foldl (fun tree (name, value) =>
    match settingPath? name with
    | some path => tree.merge (.nested .environment path (Inline.read value))
    | none => tree) (.table .environment [])

end Bearer.Settings
