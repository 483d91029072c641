namespace Bearer.Yaml

structure Mark where
  offset : Nat
  line : Nat
  column : Nat
  deriving DecidableEq, Repr

namespace Mark

def start : Mark := ⟨0, 0, 0⟩

def nextColumn (mark : Mark) (width : Nat) : Mark :=
  ⟨mark.offset + width, mark.line, mark.column + 1⟩

def nextLine (mark : Mark) (width : Nat) : Mark := ⟨mark.offset + width, mark.line + 1, 0⟩

def lineStart (mark : Mark) : Mark := if mark.column = 0 then mark else mark.nextLine 0

def isStart (mark : Mark) : Bool := mark.line == 0 && mark.column == 0

def text (mark : Mark) : String :=
  if mark.isStart then "" else s!" at line {mark.line + 1} column {mark.column + 1}"

end Mark

structure Glyph where
  char : Char
  mark : Mark
  deriving DecidableEq, Repr

/-! ## Classes of characters -/

def isBreak (c : Char) : Bool := c == '\n' || c == '\u2028' || c == '\u2029'

def isBlank (c : Char) : Bool := c == ' ' || c == '\t'

def isSpace (c : Char) : Bool := isBlank c || isBreak c

def byteOrderMark : Char := '\ufeff'

def isAllowed (c : Char) : Bool :=
  c == '\t' || c == '\n' || c == '\r' || c == '\u0085' || (' ' ≤ c && c ≤ '~') ||
    ('\u00a0' ≤ c && c != '\ufffe' && c != '\uffff')

def isNameChar (c : Char) : Bool := c.isAlphanum || c == '_' || c == '-'

def endsWord : List Glyph → Bool
  | [] => true
  | glyph :: _ => isSpace glyph.char

def startsWith (c : Char) (glyphs : List Glyph) : Bool := glyphs.head?.any (·.char == c)

def chars (glyphs : List Glyph) : List Char := glyphs.map Glyph.char

/-! ## Places -/

def locateFrom (before : List Glyph) (mark : Mark) : List Char → List Glyph × Mark
  | [] => (before.reverse, mark)
  | '\r' :: '\n' :: rest => locateFrom (⟨'\n', mark⟩ :: before) (mark.nextLine 2) rest
  | c :: rest =>
      let width := c.utf8Size
      if c = '\r' ∨ c = '\u0085' ∨ c = '\n' then
        locateFrom (⟨'\n', mark⟩ :: before) (mark.nextLine width) rest
      else if isBreak c then locateFrom (⟨c, mark⟩ :: before) (mark.nextLine width) rest
      else locateFrom (⟨c, mark⟩ :: before) (mark.nextColumn width) rest

def locate (text : List Char) : List Glyph × Mark := locateFrom [] .start text

def isEdge (c : Char) : List Glyph → Bool
  | x :: y :: z :: rest =>
      x.mark.column == 0 && x.char == c && y.char == c && z.char == c && endsWord rest
  | _ => false

def isAnyEdge (glyphs : List Glyph) : Bool := isEdge '-' glyphs || isEdge '.' glyphs

end Bearer.Yaml
