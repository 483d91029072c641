import Bearer.Yaml.Glyph

namespace Bearer.Yaml

inductive Cause where
  | forbiddenCharacter (offset : Nat)
  | noTokenStart
  | missingColon
  | entryOutOfPlace
  | keyOutOfPlace
  | valueOutOfPlace
  | colonInFlow
  | tabInPlain
  | tabInBlock
  | zeroIndentation
  | blockHeader
  | edgeInQuotes
  | unclosedQuotes
  | unknownEscape
  | escapeNotHexadecimal
  | escapedSurrogate
  | nameOfNothing (isReference : Bool)
  | directiveName
  | directiveNameEnd
  | unknownDirective
  | directiveEnd
  | versionPoint
  | versionTooLong
  | versionDigit
  | handleStart (inDirective : Bool)
  | handleEnd
  | spaceBehindHandle
  | spaceBehindStart
  | emptyUri (inDirective : Bool)
  | escapedOctet (inDirective : Bool)
  | leadingOctet (inDirective : Bool)
  | trailingOctet (inDirective : Bool)
  | unclosedTag
  | spaceBehindTag
  | repeatedVersion
  | unknownVersion
  | repeatedHandle
  | missingDocumentStart
  | missingContent (isBlock : Bool)
  | unknownHandle
  | missingEntry
  | missingKey
  | missingCommaOrBracket
  | missingCommaOrBrace
  | unknownName
  deriving DecidableEq, Repr

namespace Cause

def message : Cause → String
  | .forbiddenCharacter 0 => "control characters are not allowed"
  | .forbiddenCharacter offset => s!"control characters are not allowed at position {offset}"
  | .noTokenStart => "found character that cannot start any token"
  | .missingColon => "could not find expected ':'"
  | .entryOutOfPlace => "block sequence entries are not allowed in this context"
  | .keyOutOfPlace => "mapping keys are not allowed in this context"
  | .valueOutOfPlace => "mapping values are not allowed in this context"
  | .colonInFlow => "found unexpected ':'"
  | .tabInPlain => "found a tab character that violates indentation"
  | .tabInBlock => "found a tab character where an indentation space is expected"
  | .zeroIndentation => "found an indentation indicator equal to 0"
  | .edgeInQuotes => "found unexpected document indicator"
  | .unclosedQuotes => "found unexpected end of stream"
  | .unknownEscape => "found unknown escape character"
  | .escapeNotHexadecimal => "did not find expected hexdecimal number"
  | .escapedSurrogate => "found invalid Unicode character escape code"
  | .nameOfNothing _ => "did not find expected alphabetic or numeric character"
  | .directiveName => "could not find expected directive name"
  | .directiveNameEnd => "found unexpected non-alphabetical character"
  | .unknownDirective => "found unknown directive name"
  | .blockHeader | .directiveEnd => "did not find expected comment or line break"
  | .versionPoint => "did not find expected digit or '.' character"
  | .versionTooLong => "found extremely long version number"
  | .versionDigit => "did not find expected version number"
  | .handleStart _ | .handleEnd => "did not find expected '!'"
  | .spaceBehindHandle => "did not find expected whitespace"
  | .spaceBehindStart | .spaceBehindTag => "did not find expected whitespace or line break"
  | .emptyUri _ => "did not find expected tag URI"
  | .escapedOctet _ => "did not find URI escaped octet"
  | .leadingOctet _ => "found an incorrect leading UTF-8 octet"
  | .trailingOctet _ => "found an incorrect trailing UTF-8 octet"
  | .unclosedTag => "did not find the expected '>'"
  | .repeatedVersion => "found duplicate %YAML directive"
  | .unknownVersion => "found incompatible YAML document"
  | .repeatedHandle => "found duplicate %TAG directive"
  | .missingDocumentStart => "did not find expected <document start>"
  | .missingContent _ => "did not find expected node content"
  | .unknownHandle => "found undefined tag handle"
  | .missingEntry => "did not find expected '-' indicator"
  | .missingKey => "did not find expected key"
  | .missingCommaOrBracket => "did not find expected ',' or ']'"
  | .missingCommaOrBrace => "did not find expected ',' or '\x7d'"
  | .unknownName => "unknown anchor"

def activity? : Cause → Option String
  | .noTokenStart => some "while scanning for the next token"
  | .missingColon => some "while scanning a simple key"
  | .colonInFlow | .tabInPlain => some "while scanning a plain scalar"
  | .tabInBlock | .zeroIndentation | .blockHeader => some "while scanning a block scalar"
  | .edgeInQuotes | .unclosedQuotes => some "while scanning a quoted scalar"
  | .unknownEscape | .escapeNotHexadecimal | .escapedSurrogate =>
      some "while parsing a quoted scalar"
  | .nameOfNothing true => some "while scanning an alias"
  | .nameOfNothing false => some "while scanning an anchor"
  | .directiveName | .directiveNameEnd | .unknownDirective | .directiveEnd =>
      some "while scanning a directive"
  | .versionPoint | .versionTooLong | .versionDigit => some "while scanning a %YAML directive"
  | .handleStart true | .spaceBehindHandle | .spaceBehindStart =>
      some "while scanning a %TAG directive"
  | .handleStart false | .unclosedTag | .spaceBehindTag => some "while scanning a tag"
  | .handleEnd => some "while parsing a %TAG directive"
  | .emptyUri inDirective | .escapedOctet inDirective | .leadingOctet inDirective
  | .trailingOctet inDirective =>
      some (if inDirective then "while parsing a %TAG directive" else "while parsing a tag")
  | .missingContent true => some "while parsing a block node"
  | .missingContent false => some "while parsing a flow node"
  | .unknownHandle => some "while parsing a node"
  | .missingEntry => some "while parsing a block collection"
  | .missingKey => some "while parsing a block mapping"
  | .missingCommaOrBracket => some "while parsing a flow sequence"
  | .missingCommaOrBrace => some "while parsing a flow mapping"
  | _ => none

end Cause

structure Flaw where
  cause : Cause
  mark : Mark
  deriving DecidableEq, Repr

structure Fault extends Flaw where
  origin : Mark
  deriving DecidableEq, Repr

def Flaw.since (flaw : Flaw) (origin : Mark) : Fault := ⟨flaw, origin⟩

def Fault.message (fault : Fault) : String :=
  let origin := if fault.origin.text = fault.mark.text then "" else fault.origin.text
  let activity := match fault.cause.activity? with
    | some activity => ", " ++ activity ++ origin
    | none => ""
  fault.cause.message ++ fault.mark.text ++ activity

end Bearer.Yaml
