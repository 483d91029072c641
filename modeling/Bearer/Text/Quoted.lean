import Bearer.Text.Hex
import Bearer.Text.Property

namespace Bearer.Text

def numberEscape (c : Char) : List Char :=
  "\\u\x7b".toList ++ Hex.ofNat c.toNat ++ "\x7d".toList

def quotedChar (c : Char) : List Char :=
  if c = '\x00' then ['\\', '0']
  else if c = '\t' then ['\\', 't']
  else if c = '\r' then ['\\', 'r']
  else if c = '\n' then ['\\', 'n']
  else if c = '\\' then ['\\', '\\']
  else if c = '"' then ['\\', '"']
  else if isExtender c || !isPrintable c then numberEscape c
  else [c]

def quoted (text : String) : String :=
  String.ofList ('"' :: text.toList.flatMap quotedChar ++ ['"'])

def quotedPath (path : String) : String :=
  let inner := path.toList.flatMap fun c =>
    if c = Char.ofNat 39 then ['\\', c] else quotedChar c
  String.ofList ('"' :: inner ++ ['"'])

end Bearer.Text
