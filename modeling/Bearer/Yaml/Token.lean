import Bearer.Yaml.Scalar
import Bearer.Yaml.Tag

namespace Bearer.Yaml

inductive Token where
  | directive (directive : Directive)
  | documentStart
  | documentEnd
  | blockSequence
  | blockMapping
  | blockEnd
  | flowSequence
  | flowSequenceEnd
  | flowMapping
  | flowMappingEnd
  | blockEntry
  | flowEntry
  | key
  | value
  | anchor (name : String)
  | reference (name : String)
  | tag (tag : Tag)
  | scalar (text : String) (isPlain : Bool)
  deriving DecidableEq, Repr

structure PlacedToken where
  token : Token
  mark : Mark

structure PendingKey where
  index : Nat
  mark : Mark
  isRequired : Bool

structure Lexer where
  rest : List Glyph
  stop : Mark
  tokens : Array PlacedToken
  columns : List Nat
  allowsKey : Bool
  pending : Option PendingKey
  outer : List (Option PendingKey)

namespace Lexer

def ofString (text : List Char) : Lexer :=
  let (rest, stop) := locate text
  ⟨rest, stop, #[], [], true, none, []⟩

def inFlow (lexer : Lexer) : Bool := !lexer.outer.isEmpty

def indent (lexer : Lexer) : Int :=
  match lexer.columns with
  | [] => -1
  | column :: _ => column

def here (lexer : Lexer) : Mark :=
  match lexer.rest with
  | [] => lexer.stop
  | glyph :: _ => glyph.mark

def emit (lexer : Lexer) (token : Token) (mark : Mark) : Lexer :=
  { lexer with tokens := lexer.tokens.push ⟨token, mark⟩ }

def faultHere (lexer : Lexer) (cause : Cause) : Fault := Flaw.since ⟨cause, lexer.here⟩ lexer.here

/-! ## Indentation -/

def unroll (lexer : Lexer) (column : Int) : Lexer :=
  if lexer.inFlow then lexer
  else
    let deeper := lexer.columns.takeWhile fun (open_ : Nat) => decide (column < open_)
    let closing := deeper.map fun _ => PlacedToken.mk .blockEnd lexer.here
    { lexer with
      columns := lexer.columns.drop deeper.length, tokens := lexer.tokens ++ closing.toArray }

def roll (lexer : Lexer) (column index : Nat) (token : Token) (mark : Mark) : Lexer :=
  if !lexer.inFlow && lexer.indent < (column : Int) then
    { lexer with
      columns := column :: lexer.columns
      tokens := lexer.tokens.insertIdxIfInBounds index ⟨token, mark⟩ }
  else lexer

/-! ## Pending keys -/

def dropKey (lexer : Lexer) : Except Fault Lexer :=
  match lexer.pending with
  | some key =>
      if key.isRequired then .error (Flaw.since ⟨.missingColon, lexer.here⟩ key.mark)
      else .ok { lexer with pending := none }
  | none => .ok lexer

def noteKey (lexer : Lexer) : Except Fault Lexer := do
  if lexer.allowsKey then
    let isRequired := !lexer.inFlow && lexer.indent == (lexer.here.column : Int)
    let lexer ← lexer.dropKey
    return { lexer with pending := some ⟨lexer.tokens.size, lexer.here, isRequired⟩ }
  else return lexer

def keyLimit : Nat := 1024

def expire (here : Mark) (pending : Option PendingKey) : Except Fault (Option PendingKey) :=
  match pending with
  | none => .ok none
  | some key =>
      if key.mark.line < here.line ∨ key.mark.offset + keyLimit < here.offset then
        if key.isRequired then .error (Flaw.since ⟨.missingColon, here⟩ key.mark) else .ok none
      else .ok (some key)

def expireKeys (lexer : Lexer) : Except Fault Lexer := do
  let outer ← lexer.outer.reverse.mapM (expire lexer.here)
  return { lexer with outer := outer.reverse, pending := ← expire lexer.here lexer.pending }

def settled (lexer : Lexer) : List PlacedToken :=
  let waiting := (lexer.pending :: lexer.outer).filterMap fun key => key.map PendingKey.index
  lexer.tokens.toList.take (waiting.foldl min lexer.tokens.size)

/-! ## Between tokens -/

/-- Blanks, comments and line breaks. In block context a new line may start with a key; where a key
may start, a tab is no blank. A byte order mark at the start of a line takes a column. -/
def skipSpace (inFlow : Bool) : (allowsKey inComment : Bool) → List Glyph → Bool × List Glyph
  | allowsKey, _, [] => (allowsKey, [])
  | allowsKey, inComment, glyph :: rest =>
      if isBreak glyph.char then skipSpace inFlow (allowsKey || !inFlow) false rest
      else if inComment || glyph.char = '#' then skipSpace inFlow allowsKey true rest
      else if glyph.char = ' ' || (glyph.char = '\t' && (inFlow || !allowsKey)) ||
          (glyph.char = byteOrderMark && glyph.mark.column = 0) then
        skipSpace inFlow allowsKey false rest
      else (allowsKey, glyph :: rest)

def advance (lexer : Lexer) : Lexer :=
  let (allowsKey, rest) := skipSpace lexer.inFlow lexer.allowsKey false lexer.rest
  { lexer with allowsKey, rest }

/-! ## Single tokens

Each of these takes the glyphs behind the start of its token. -/

def edge (lexer : Lexer) (token : Token) (rest : List Glyph) : Except Fault Lexer := do
  let lexer ← (lexer.unroll (-1)).dropKey
  return { lexer.emit token lexer.here with allowsKey := false, rest := rest.drop 2 }

def readToken (lexer : Lexer) (reader : CursorM Token) (rest : List Glyph) :
    Except Fault Lexer := do
  let (token, cursor) ← (reader.run ⟨rest, lexer.stop⟩).mapError (·.since lexer.here)
  return { lexer.emit token lexer.here with allowsKey := false, rest := cursor.rest }

def directive (lexer : Lexer) (rest : List Glyph) : Except Fault Lexer := do
  (← (lexer.unroll (-1)).dropKey).readToken (.directive <$> readDirective) rest

def openFlow (lexer : Lexer) (token : Token) (rest : List Glyph) : Except Fault Lexer := do
  let lexer ← lexer.noteKey
  return { lexer.emit token lexer.here with
    outer := lexer.pending :: lexer.outer, pending := none, allowsKey := true, rest }

def closeFlow (lexer : Lexer) (token : Token) (rest : List Glyph) : Except Fault Lexer := do
  let lexer ← lexer.dropKey
  return { lexer.emit token lexer.here with
    pending := lexer.outer.head?.join, outer := lexer.outer.tail, allowsKey := false, rest }

def flowEntry (lexer : Lexer) (rest : List Glyph) : Except Fault Lexer := do
  let lexer ← lexer.dropKey
  return { lexer.emit .flowEntry lexer.here with allowsKey := true, rest }

def blockEntry (lexer : Lexer) (rest : List Glyph) : Except Fault Lexer := do
  if !lexer.inFlow && !lexer.allowsKey then throw (lexer.faultHere .entryOutOfPlace)
  let lexer := lexer.roll lexer.here.column lexer.tokens.size .blockSequence lexer.here
  let lexer ← lexer.dropKey
  return { lexer.emit .blockEntry lexer.here with allowsKey := true, rest }

def key (lexer : Lexer) (rest : List Glyph) : Except Fault Lexer := do
  if !lexer.inFlow && !lexer.allowsKey then throw (lexer.faultHere .keyOutOfPlace)
  let lexer := lexer.roll lexer.here.column lexer.tokens.size .blockMapping lexer.here
  let lexer ← lexer.dropKey
  return { lexer.emit .key lexer.here with allowsKey := !lexer.inFlow, rest }

def value (lexer : Lexer) (rest : List Glyph) : Except Fault Lexer := do
  match lexer.pending with
  | some pending =>
      let tokens := lexer.tokens.insertIdxIfInBounds pending.index ⟨.key, pending.mark⟩
      let lexer := { lexer with tokens, pending := none }
      let lexer :=
        lexer.roll pending.mark.column pending.index .blockMapping pending.mark
      return { lexer.emit .value lexer.here with allowsKey := false, rest }
  | none =>
      if !lexer.inFlow && !lexer.allowsKey then throw (lexer.faultHere .valueOutOfPlace)
      let lexer := lexer.roll lexer.here.column lexer.tokens.size .blockMapping lexer.here
      return { lexer.emit .value lexer.here with allowsKey := !lexer.inFlow, rest }

def endsName (c : Char) : Bool := "?:,]\x7d%@".toList.contains c || c == Char.ofNat 96

def readName (isReference : Bool) : CursorM Token := do
  let word ← Cursor.takeWhile isNameChar
  let after := (← get).rest
  if !word.isEmpty && (endsWord after || after.head?.any fun next => endsName next.char) then
    let name := String.ofList word
    return if isReference then .reference name else .anchor name
  else Cursor.fail (.nameOfNothing isReference)

def name (lexer : Lexer) (isReference : Bool) (rest : List Glyph) : Except Fault Lexer := do
  (← lexer.noteKey).readToken (readName isReference) rest

def tag (lexer : Lexer) : Except Fault Lexer := do
  (← lexer.noteKey).readToken (.tag <$> readTag lexer.inFlow) lexer.rest

def quoted (lexer : Lexer) (read : Except Flaw Read) : Except Fault Lexer := do
  let lexer ← lexer.noteKey
  let read ← read.mapError (·.since lexer.here)
  return { lexer.emit (.scalar read.string false) lexer.here with
    allowsKey := false, rest := read.rest }

def block (lexer : Lexer) (isFolded : Bool) (rest : List Glyph) : Except Fault Lexer := do
  let lexer ← lexer.dropKey
  let read ← (blockScalar isFolded lexer.indent rest).mapError (·.since lexer.here)
  return { lexer.emit (.scalar read.string false) lexer.here with
    allowsKey := true, rest := read.rest }

def plainScalar (lexer : Lexer) : Except Fault Lexer := do
  let lexer ← lexer.noteKey
  let read ← (plain lexer.inFlow (lexer.indent + 1) [] .none lexer.rest).mapError
    (·.since lexer.here)
  return { lexer.emit (.scalar read.string true) lexer.here with
    allowsKey := read.gap.isBroken, rest := read.rest }

/-! ## All tokens -/

def isIndicator (c : Char) : Bool :=
  "-?:,[]\x7b\x7d#&*!|>\"%@".toList.contains c || c == Char.ofNat 39 || c == Char.ofNat 96

def startsPlain (inFlow : Bool) (c : Char) (rest : List Glyph) : Bool :=
  !isIndicator c && !isBlank c || (c == '-' && !(rest.head?.any fun next => isBlank next.char)) ||
    (!inFlow && (c == '?' || c == ':') && !endsWord rest)

def token (lexer : Lexer) (glyph : Glyph) (rest : List Glyph) : Except Fault Lexer :=
  let c := glyph.char
  let ends := endsWord rest
  if glyph.mark.column = 0 && c = '%' then lexer.directive rest
  else if isEdge '-' (glyph :: rest) then lexer.edge .documentStart rest
  else if isEdge '.' (glyph :: rest) then lexer.edge .documentEnd rest
  else if c = '[' then lexer.openFlow .flowSequence rest
  else if c = '\x7b' then lexer.openFlow .flowMapping rest
  else if c = ']' then lexer.closeFlow .flowSequenceEnd rest
  else if c = '\x7d' then lexer.closeFlow .flowMappingEnd rest
  else if c = ',' then lexer.flowEntry rest
  else if c = '-' && ends then lexer.blockEntry rest
  else if c = '?' && (lexer.inFlow || ends) then lexer.key rest
  else if c = ':' && (lexer.inFlow || ends) then lexer.value rest
  else if c = '*' then lexer.name true rest
  else if c = '&' then lexer.name false rest
  else if c = '!' then lexer.tag
  else if c = '|' && !lexer.inFlow then lexer.block false rest
  else if c = '>' && !lexer.inFlow then lexer.block true rest
  else if c = Char.ofNat 39 then lexer.quoted (singleQuoted lexer.stop [] .none rest)
  else if c = '"' then lexer.quoted (doubleQuoted lexer.stop [] .none .outside rest)
  else if startsPlain lexer.inFlow c rest then lexer.plainScalar
  else .error (lexer.faultHere .noTokenStart)

def finish (lexer : Lexer) : Except Fault Lexer :=
  let lexer := { lexer with stop := lexer.stop.lineStart }
  (lexer.unroll (-1)).dropKey

def step (lexer : Lexer) : Except Fault Lexer := do
  let lexer ← lexer.advance.expireKeys
  let next ← match lexer.rest with
    | [] => lexer.finish
    | glyph :: rest => (lexer.unroll glyph.mark.column).token glyph rest
  next.expireKeys

end Lexer

/-! ## Pieces of a text

A text is looked at in pieces, and a character that is not allowed is a fault of its whole piece. -/

def pieceSize : Nat := 16384

/-- The pieces in front of the first one with a character that is not allowed, and how many bytes
stand in front of the character. The piece began at `start`. -/
def readable (before piece : List Char) (start offset : Nat) : List Char → List Char × Option Nat
  | [] => ((piece ++ before).reverse, none)
  | c :: rest =>
      let behind := offset + c.utf8Size
      if !isAllowed c then
        ((if start + pieceSize < behind then piece ++ before else before).reverse, some offset)
      else if start + pieceSize < behind then
        readable (piece ++ before) [c] offset behind rest
      else readable before (c :: piece) start behind rest

structure Tokens where
  list : List PlacedToken
  stop : Mark
  fault : Option Fault

namespace Tokens

def collect (unreadable : Option Fault) : Nat → Lexer → Tokens
  | 0, lexer => ⟨lexer.tokens.toList, lexer.stop, unreadable⟩
  | steps + 1, lexer =>
      match lexer.step with
      | .error fault =>
          let isFinal := fault.mark.offset = lexer.stop.offset
          let fault := if isFinal then unreadable.getD fault else fault
          ⟨lexer.settled, lexer.stop, some fault⟩
      | .ok next =>
          if !next.rest.isEmpty then collect unreadable steps next
          else if unreadable.isSome then ⟨lexer.settled, lexer.stop, unreadable⟩
          else if !lexer.rest.isEmpty then collect unreadable steps next
          else ⟨next.tokens.toList, next.stop, none⟩

def ofString (text : String) : Tokens :=
  let (chars, forbidden) := readable [] [] 0 0 text.toList
  let lexer := Lexer.ofString chars
  let unreadable := forbidden.map fun offset =>
    Flaw.since ⟨.forbiddenCharacter offset, .start⟩ .start
  collect unreadable (lexer.rest.length + 2) lexer

end Tokens

end Bearer.Yaml
