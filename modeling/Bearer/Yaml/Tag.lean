import Bearer.Text.Hex
import Bearer.Text.Utf8
import Bearer.Yaml.Fault

namespace Bearer.Yaml

/-! ## Reading glyphs -/

structure Cursor where
  rest : List Glyph
  stop : Mark

abbrev CursorM := StateT Cursor (Except Flaw)

namespace Cursor

def mark (cursor : Cursor) : Mark := (cursor.rest.head?.map Glyph.mark).getD cursor.stop

def fail {α : Type} (cause : Cause) : CursorM α := do throw ⟨cause, (← get).mark⟩

def takeWhile (test : Char → Bool) : CursorM (List Char) :=
  modifyGet fun cursor =>
    let word := cursor.rest.takeWhile fun (glyph : Glyph) => test glyph.char
    (chars word, { cursor with rest := cursor.rest.drop word.length })

def skipBlanks : CursorM Unit := do
  let _ ← takeWhile isBlank

def eat (c : Char) : CursorM Bool :=
  modifyGet fun cursor =>
    if startsWith c cursor.rest then (true, { cursor with rest := cursor.rest.tail })
    else (false, cursor)

def expect (c : Char) (cause : Cause) : CursorM Unit := do
  if !(← eat c) then fail cause

def isAtWordEnd : CursorM Bool := do return endsWord (← get).rest

def isAtBlank : CursorM Bool := do return (← get).rest.head?.any (isBlank ·.char)

end Cursor

open Cursor

/-! ## Addresses -/

def isUriChar (isVerbatim : Bool) (c : Char) : Bool :=
  isNameChar c || ";/?:@&=+$.!~*'()%".toList.contains c || (isVerbatim && ",[]".toList.contains c)

def octetCount? (octet : Nat) : Option Nat :=
  if octet < 0x80 then some 1
  else if 0xc0 ≤ octet ∧ octet < 0xe0 then some 2
  else if 0xe0 ≤ octet ∧ octet < 0xf0 then some 3
  else if 0xf0 ≤ octet ∧ octet < 0xf8 then some 4
  else none

def octet? (high low : Glyph) : Option Nat := do
  return (← Hex.value? high.char) * 16 + (← Hex.value? low.char)

/-- The octets of an address, with those that are escaped. As long as octets of a character are
`missing`, nothing else than an escaped one can follow. -/
def uriOctets (inDirective isVerbatim : Bool) (missing : Nat) (held : Bytes) (stop : Mark) :
    List Glyph → Except Flaw (Bytes × List Glyph)
  | [] => if missing = 0 then .ok (held, []) else .error ⟨.escapedOctet inDirective, stop⟩
  | [glyph] =>
      if 0 < missing ∨ glyph.char = '%' then .error ⟨.escapedOctet inDirective, glyph.mark⟩
      else if isUriChar isVerbatim glyph.char then
        .ok (held ++ String.utf8EncodeChar glyph.char, [])
      else .ok (held, [glyph])
  | [glyph, next] =>
      if 0 < missing ∨ glyph.char = '%' then .error ⟨.escapedOctet inDirective, glyph.mark⟩
      else if isUriChar isVerbatim glyph.char then
        uriOctets inDirective isVerbatim 0 (held ++ String.utf8EncodeChar glyph.char) stop [next]
      else .ok (held, [glyph, next])
  | glyph :: high :: low :: rest =>
      if glyph.char = '%' then
        match octet? high low with
        | none => .error ⟨.escapedOctet inDirective, glyph.mark⟩
        | some octet =>
            let held := held ++ [UInt8.ofNat octet]
            if missing = 0 then
              match octetCount? octet with
              | none => .error ⟨.leadingOctet inDirective, glyph.mark⟩
              | some count => uriOctets inDirective isVerbatim (count - 1) held stop rest
            else if 0x80 ≤ octet ∧ octet < 0xc0 then
              uriOctets inDirective isVerbatim (missing - 1) held stop rest
            else .error ⟨.trailingOctet inDirective, glyph.mark⟩
      else if 0 < missing then .error ⟨.escapedOctet inDirective, glyph.mark⟩
      else if isUriChar isVerbatim glyph.char then
        uriOctets inDirective isVerbatim 0 (held ++ String.utf8EncodeChar glyph.char) stop
          (high :: low :: rest)
      else .ok (held, glyph :: high :: low :: rest)

def readUri (inDirective isVerbatim : Bool) (start : Option (List Char)) : CursorM Bytes := do
  let cursor ← get
  let (found, rest) ← uriOctets inDirective isVerbatim 0 [] cursor.stop cursor.rest
  set { cursor with rest }
  if start.isNone && rest.length = cursor.rest.length then fail (.emptyUri inDirective)
  return (Utf8.encodeChars (start.getD []) ++ found).takeWhile (· != 0)

/-! ## Tags -/

structure Tag where
  handle : Option String
  suffix : Bytes
  deriving DecidableEq, Repr

def Tag.bare : Tag := ⟨none, Utf8.encode "!"⟩

def applicationName? (tag : Bytes) : Option String :=
  match tag with
  | 0x21 :: name => Utf8.decode? (if name.isEmpty then tag else name)
  | _ => none

def readHandle (inDirective : Bool) : CursorM (List Char × Bool) := do
  expect '!' (.handleStart inDirective)
  let word ← takeWhile isNameChar
  return (word, ← eat '!')

def readTag (inFlow : Bool) : CursorM Tag := do
  let tag ←
    if startsWith '<' (← get).rest.tail then do
      modify fun cursor => { cursor with rest := cursor.rest.drop 2 }
      let suffix ← readUri false true none
      expect '>' .unclosedTag
      pure ⟨none, suffix⟩
    else do
      let (word, isClosed) ← readHandle false
      if isClosed then
        pure ⟨some (String.ofList ('!' :: word ++ ['!'])), ← readUri false false none⟩
      else do
        let suffix ← readUri false false (some word)
        pure (if suffix.isEmpty then .bare else ⟨some "!", suffix⟩)
  let ends := (← isAtWordEnd) || (inFlow && startsWith ',' (← get).rest)
  if ends then return tag else fail .spaceBehindTag

/-! ## Directives -/

inductive Directive where
  | version (major minor : Nat)
  | handle (name : String) (start : Bytes)
  deriving DecidableEq, Repr

def readVersionNumber : CursorM Nat := do
  let cursor ← get
  let digits := chars (cursor.rest.takeWhile fun (glyph : Glyph) => glyph.char.isDigit)
  set { cursor with rest := cursor.rest.drop (min 9 digits.length) }
  if digits.isEmpty then fail .versionDigit
  else if 9 < digits.length then fail .versionTooLong
  else return digits.foldl (fun value c => value * 10 + (c.toNat - 48)) 0

def readVersion : CursorM Directive := do
  skipBlanks
  let major ← readVersionNumber
  expect '.' .versionPoint
  return .version major (← readVersionNumber)

def readHandleDirective : CursorM Directive := do
  skipBlanks
  let (word, isClosed) ← readHandle true
  if !isClosed && !word.isEmpty then fail .handleEnd
  if !(← isAtBlank) then fail .spaceBehindHandle
  skipBlanks
  let start ← readUri true true none
  if !(← isAtWordEnd) then fail .spaceBehindStart
  return .handle (String.ofList ('!' :: word ++ if isClosed then ['!'] else [])) start

def readDirective : CursorM Directive := do
  let name ← takeWhile isNameChar
  if name.isEmpty then fail .directiveName
  if !(← isAtWordEnd) then fail .directiveNameEnd
  let directive ←
    if name = "YAML".toList then readVersion
    else if name = "TAG".toList then readHandleDirective
    else fail .unknownDirective
  skipBlanks
  if startsWith '#' (← get).rest then
    let _ ← takeWhile fun c => !isBreak c
  match (← get).rest with
  | [] => return directive
  | glyph :: rest =>
      if isBreak glyph.char then do
        modify fun cursor => { cursor with rest }
        return directive
      else fail .directiveEnd

/-! ## Handles -/

abbrev Handles := List (String × Bytes)

def Handles.standard : Handles :=
  [("!", Utf8.encode "!"), ("!!", Utf8.encode "tag:yaml.org,2002:")]

def Tag.resolve? (handles : Handles) (tag : Tag) : Option Bytes :=
  match tag.handle with
  | none => some tag.suffix
  | some handle => (handles.lookup handle).map (· ++ tag.suffix)

end Bearer.Yaml
