import Bearer.Json.Value
import Bearer.Number.Layout
import Bearer.Text.Hex

namespace Bearer.Json

def floatText (x : Binary64) : String :=
  let d := x.shortest
  let body :=
    if -5 ≤ d.leading ∧ d.leading ≤ 15 then d.positional ".0" else d.scientific
  if x.isNegative then "-" ++ body else body

def Number.text : Number → String
  | .int value => toString value
  | .float value => floatText value

def escapeChar (c : Char) : List Char :=
  if c = '"' then ['\\', '"']
  else if c = '\\' then ['\\', '\\']
  else if c = '\n' then ['\\', 'n']
  else if c = '\r' then ['\\', 'r']
  else if c = '\t' then ['\\', 't']
  else if c = '\x08' then ['\\', 'b']
  else if c = '\x0c' then ['\\', 'f']
  else if c.toNat < 32 then
    ['\\', 'u', '0', '0', Hex.digit (c.toNat / 16), Hex.digit (c.toNat % 16)]
  else [c]

def stringChars (text : String) : List Char := '"' :: text.toList.flatMap escapeChar ++ ['"']

/-! ## Compact form -/

mutual

def Value.chars : Value → List Char
  | .null => "null".toList
  | .bool true => "true".toList
  | .bool false => "false".toList
  | .number value => value.text.toList
  | .string text => stringChars text
  | .array [] => "[]".toList
  | .array (item :: items) => '[' :: item.chars ++ itemsChars items ++ [']']
  | .object [] => ['\x7b', '\x7d']
  | .object ((name, value) :: members) =>
      '\x7b' :: stringChars name ++ ':' :: value.chars ++ membersChars members ++ ['\x7d']

def itemsChars : List Value → List Char
  | [] => []
  | item :: items => ',' :: item.chars ++ itemsChars items

def membersChars : List (String × Value) → List Char
  | [] => []
  | (name, value) :: members =>
      ',' :: stringChars name ++ ':' :: value.chars ++ membersChars members

end

def Value.compact (value : Value) : String := String.ofList value.chars

/-! ## Form with indented lines -/

def newLine (depth : Nat) : List Char := '\n' :: List.replicate (2 * depth) ' '

mutual

def Value.prettyChars (depth : Nat) : Value → List Char
  | .array (item :: items) =>
      '[' :: newLine (depth + 1) ++ item.prettyChars (depth + 1) ++ itemsPretty (depth + 1) items ++
        newLine depth ++ [']']
  | .object ((name, value) :: members) =>
      '\x7b' :: newLine (depth + 1) ++ stringChars name ++ ':' :: ' ' ::
        value.prettyChars (depth + 1) ++ membersPretty (depth + 1) members ++
        newLine depth ++ ['\x7d']
  | .null => "null".toList
  | .bool true => "true".toList
  | .bool false => "false".toList
  | .number value => value.text.toList
  | .string text => stringChars text
  | .array [] => "[]".toList
  | .object [] => ['\x7b', '\x7d']

def itemsPretty (depth : Nat) : List Value → List Char
  | [] => []
  | item :: items => ',' :: newLine depth ++ item.prettyChars depth ++ itemsPretty depth items

def membersPretty (depth : Nat) : List (String × Value) → List Char
  | [] => []
  | (name, value) :: members =>
      ',' :: newLine depth ++ stringChars name ++ ':' :: ' ' :: value.prettyChars depth ++
        membersPretty depth members

end

def Value.pretty (value : Value) : String := String.ofList (value.prettyChars 0)

end Bearer.Json
