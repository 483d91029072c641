import Bearer.Text.Hex
import Bearer.Yaml.Fault

namespace Bearer.Yaml

/-- The white space since the last character of a scalar: blanks on one line, or line breaks, of
which the first counts apart. A first break that was escaped leaves no trace. -/
inductive Gap where
  | blanks (chars : List Char)
  | breaks (first : Option Char) (more : List Char)

namespace Gap

def none : Gap := .blanks []

def isBroken : Gap → Bool
  | .blanks _ => false
  | .breaks _ _ => true

def isNone : Gap → Bool
  | .blanks [] => true
  | _ => false

def add (gap : Gap) (c : Char) : Gap :=
  match gap with
  | .blanks chars => if isBreak c then .breaks (some c) [] else .blanks (chars ++ [c])
  | .breaks first more => if isBreak c then .breaks first (more ++ [c]) else gap

def folded : Gap → List Char
  | .blanks chars => chars
  | .breaks (some '\n') [] => [' ']
  | .breaks (some '\n') more => more
  | .breaks first more => first.toList ++ more

def foldOnto (gap : Gap) (held : List Char) : List Char := gap.folded.reverse ++ held

end Gap

structure Read where
  text : List Char
  gap : Gap
  rest : List Glyph

def Read.string (read : Read) : String := String.ofList read.text

def Read.ofHeld (held : List Char) (gap : Gap) (rest : List Glyph) : Read :=
  ⟨held.reverse, gap, rest⟩

/-! ## Plain scalars -/

def isFlowMark (c : Char) : Bool :=
  c == ',' || c == '[' || c == ']' || c == '\x7b' || c == '\x7d'

def endsPlain (inFlow : Bool) (glyph : Glyph) (rest : List Glyph) : Bool :=
  (glyph.char == ':' && endsWord rest) || (inFlow && isFlowMark glyph.char)

def isStrayColon (inFlow : Bool) (glyph : Glyph) (rest : List Glyph) : Bool :=
  inFlow && glyph.char == ':' &&
    rest.head?.any fun next => isFlowMark next.char || next.char == '?'

def endsAfterGap (inFlow : Bool) (margin : Int) (glyphs : List Glyph) : Bool :=
  match glyphs with
  | [] => true
  | glyph :: _ =>
      glyph.char == '#' || isAnyEdge glyphs || (!inFlow && (glyph.mark.column : Int) < margin)

def plain (inFlow : Bool) (margin : Int) (held : List Char) (gap : Gap) :
    List Glyph → Except Flaw Read
  | [] => .ok (.ofHeld held gap [])
  | glyph :: rest =>
      if isSpace glyph.char then
        if glyph.char = '\t' ∧ gap.isBroken ∧ (glyph.mark.column : Int) < margin then
          .error ⟨.tabInPlain, glyph.mark⟩
        else plain inFlow margin held (gap.add glyph.char) rest
      else if !gap.isNone && endsAfterGap inFlow margin (glyph :: rest) then
        .ok (.ofHeld held gap (glyph :: rest))
      else if isStrayColon inFlow glyph rest then .error ⟨.colonInFlow, glyph.mark⟩
      else if endsPlain inFlow glyph rest then .ok (.ofHeld held gap (glyph :: rest))
      else plain inFlow margin (glyph.char :: gap.foldOnto held) .none rest

/-! ## Quoted scalars -/

def singleQuoted (stop : Mark) (held : List Char) (gap : Gap) : List Glyph → Except Flaw Read
  | [] => .error ⟨.unclosedQuotes, stop⟩
  | [glyph] =>
      if glyph.char = Char.ofNat 39 then .ok (.ofHeld (gap.foldOnto held) .none [])
      else .error ⟨.unclosedQuotes, stop⟩
  | glyph :: next :: rest =>
      if isSpace glyph.char then singleQuoted stop held (gap.add glyph.char) (next :: rest)
      else if isAnyEdge (glyph :: next :: rest) then .error ⟨.edgeInQuotes, glyph.mark⟩
      else if glyph.char ≠ Char.ofNat 39 then
        singleQuoted stop (glyph.char :: gap.foldOnto held) .none (next :: rest)
      else if next.char = Char.ofNat 39 then
        singleQuoted stop (glyph.char :: gap.foldOnto held) .none rest
      else .ok (.ofHeld (gap.foldOnto held) .none (next :: rest))

def letterEscapes : List (Char × Char) := [
  ('0', '\x00'), ('a', '\x07'), ('b', '\x08'), ('t', '\t'), ('\t', '\t'), ('n', '\n'),
  ('v', '\x0b'), ('f', '\x0c'), ('r', '\r'), ('e', '\x1b'), (' ', ' '), ('"', '"'), ('/', '/'),
  ('\\', '\\'), ('N', '\u0085'), ('_', '\u00a0'), ('L', '\u2028'), ('P', '\u2029')]

def hexEscapes : List (Char × Nat) := [('x', 2), ('u', 4), ('U', 8)]

inductive Escape where
  | outside
  | started (mark : Mark)
  | digits (mark : Mark) (count value : Nat)

def escapedChar? (value : Nat) : Option Char :=
  if value.isValidChar then some (Char.ofNat value) else none

def Mark.behindLetter (mark : Mark) : Mark := mark.nextColumn 1

def doubleQuoted (stop : Mark) (held : List Char) (gap : Gap) :
    Escape → List Glyph → Except Flaw Read
  | .outside, [] => .error ⟨.unclosedQuotes, stop⟩
  | .started mark, [] => .error ⟨.unknownEscape, mark⟩
  | .digits mark _ _, [] => .error ⟨.escapeNotHexadecimal, mark⟩
  | .outside, glyph :: rest =>
      if isSpace glyph.char then doubleQuoted stop held (gap.add glyph.char) .outside rest
      else if isAnyEdge (glyph :: rest) then .error ⟨.edgeInQuotes, glyph.mark⟩
      else if glyph.char = '"' then .ok (.ofHeld (gap.foldOnto held) .none rest)
      else if glyph.char = '\\' then
        doubleQuoted stop (gap.foldOnto held) .none (.started glyph.mark) rest
      else doubleQuoted stop (glyph.char :: gap.foldOnto held) .none .outside rest
  | .started mark, glyph :: rest =>
      if isBreak glyph.char then doubleQuoted stop held (.breaks Option.none []) .outside rest
      else match letterEscapes.lookup glyph.char with
        | some c => doubleQuoted stop (c :: held) .none .outside rest
        | Option.none =>
            match hexEscapes.lookup glyph.char with
            | some count =>
                let first := glyph.mark.behindLetter
                doubleQuoted stop held .none (.digits first count 0) rest
            | Option.none => .error ⟨.unknownEscape, mark⟩
  | .digits mark count value, glyph :: rest =>
      match Hex.value? glyph.char with
      | Option.none => .error ⟨.escapeNotHexadecimal, mark⟩
      | some digit =>
          let value := value * 16 + digit
          if 1 < count then doubleQuoted stop held .none (.digits mark (count - 1) value) rest
          else match escapedChar? value with
            | some c => doubleQuoted stop (c :: held) .none .outside rest
            | Option.none => .error ⟨.escapedSurrogate, mark⟩

/-! ## Block scalars -/

inductive Chomping where
  | strip
  | clip
  | keep
  deriving DecidableEq

structure BlockHeader where
  chomping : Chomping
  indentation : Option Nat

def chomping? (c : Char) : Option Chomping :=
  if c = '+' then some .keep else if c = '-' then some .strip else none

def indentation? (c : Char) : Option Nat :=
  if '0' ≤ c ∧ c ≤ '9' then some (c.toNat - 48) else none

def blockHeader : List Glyph → BlockHeader × List Glyph
  | [] => (⟨.clip, none⟩, [])
  | first :: rest =>
      match chomping? first.char, indentation? first.char with
      | some chomping, _ =>
          match rest.head?.bind (fun next => indentation? next.char) with
          | some count => (⟨chomping, some count⟩, rest.tail)
          | none => (⟨chomping, none⟩, rest)
      | none, some count =>
          match rest.head?.bind (fun next => chomping? next.char) with
          | some chomping => (⟨chomping, some count⟩, rest.tail)
          | none => (⟨.clip, some count⟩, rest)
      | none, none => (⟨.clip, none⟩, first :: rest)

def lineEnd (glyphs : List Glyph) : List Glyph :=
  glyphs.dropWhile fun (glyph : Glyph) => !isBreak glyph.char

def headerEnd (glyphs : List Glyph) : Except Flaw (List Glyph) :=
  match glyphs.dropWhile fun (glyph : Glyph) => isBlank glyph.char with
  | [] => .ok []
  | glyph :: rest =>
      if glyph.char = '#' then .ok (lineEnd rest).tail
      else if isBreak glyph.char then .ok rest
      else .error ⟨.blockHeader, glyph.mark⟩

/-- The indentation of the first line that is not empty, or the deepest of empty lines before it. -/
def detectIndentation : Nat → List Glyph → Except Flaw Nat
  | deepest, [] => .ok deepest
  | deepest, glyph :: rest =>
      let column := glyph.mark.column
      if glyph.char = ' ' then detectIndentation (max deepest (column + 1)) rest
      else if glyph.char = '\t' then .error ⟨.tabInBlock, glyph.mark⟩
      else if isBreak glyph.char then detectIndentation (max deepest column) rest
      else .ok (max deepest column)

structure Block where
  held : List Char
  lineBreak : List Char
  emptyLines : List Char
  isIndented : Bool

namespace Block

def empty : Block := ⟨[], [], [], false⟩

def startLine (isFolded : Bool) (block : Block) (c : Char) : Block :=
  let joins := isFolded && block.lineBreak == ['\n'] && !block.isIndented && !isBlank c
  let between :=
    if !joins then block.lineBreak else if block.emptyLines.isEmpty then [' '] else []
  ⟨block.emptyLines.reverse ++ between ++ block.held, [], [], isBlank c⟩

def finish (chomping : Chomping) (block : Block) : List Char :=
  block.held.reverse ++ (if chomping = .strip then [] else block.lineBreak) ++
    (if chomping = .keep then block.emptyLines else [])

end Block

def blockLines (isFolded : Bool) (indent : Nat) (block : Block) :
    Bool → List Glyph → Except Flaw (Block × List Glyph)
  | _, [] => .ok (block, [])
  | true, glyph :: rest =>
      if isBreak glyph.char then
        blockLines isFolded indent { block with lineBreak := [glyph.char] } false rest
      else
        blockLines isFolded indent { block with held := glyph.char :: block.held } true rest
  | false, glyph :: rest =>
      let column := glyph.mark.column
      if glyph.char = ' ' ∧ column < indent then blockLines isFolded indent block false rest
      else if glyph.char = '\t' ∧ column < indent then .error ⟨.tabInBlock, glyph.mark⟩
      else if isBreak glyph.char then
        let emptyLines := block.emptyLines ++ [glyph.char]
        blockLines isFolded indent { block with emptyLines } false rest
      else if column = indent then
        let started := block.startLine isFolded glyph.char
        blockLines isFolded indent { started with held := glyph.char :: started.held } true rest
      else .ok (block, glyph :: rest)

def blockScalar (isFolded : Bool) (parent : Int) (glyphs : List Glyph) : Except Flaw Read := do
  let (header, rest) := blockHeader glyphs
  if header.indentation = some 0 then
    throw ⟨.zeroIndentation, ((glyphs.find? (·.char == '0')).map Glyph.mark).getD .start⟩
  let lines ← headerEnd rest
  let indent ← match header.indentation with
    | some count => pure ((max parent 0).toNat + count)
    | none => do pure (max (max (← detectIndentation 0 lines) (parent + 1).toNat) 1)
  let (block, rest) ← blockLines isFolded indent .empty false lines
  return ⟨block.finish header.chomping, .none, rest⟩

end Bearer.Yaml
