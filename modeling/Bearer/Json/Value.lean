import Bearer.Number.Shortest

namespace Bearer.Json

inductive Number where
  | int (value : Int)
  | float (value : Binary64)
  deriving DecidableEq, Repr

inductive Value where
  | null
  | bool (value : Bool)
  | number (value : Number)
  | string (value : String)
  | array (items : List Value)
  | object (members : List (String × Value))
  deriving Repr, Inhabited

abbrev Members := List (String × Value)

namespace Members

def insert (name : String) (value : Value) : Members → Members
  | [] => [(name, value)]
  | (other, held) :: rest =>
      if name < other then (name, value) :: (other, held) :: rest
      else if name = other then (name, value) :: rest
      else (other, held) :: insert name value rest

def get? (members : Members) (name : String) : Option Value := members.lookup name

def ofList (members : List (String × Value)) : Members :=
  members.foldl (fun sorted member => insert member.1 member.2 sorted) []

end Members

/-! ## Views -/

namespace Value

def int (value : Int) : Value := .number (.int value)

def asString? : Value → Option String
  | .string text => some text
  | _ => none

def asInt? : Value → Option Int
  | .number (.int value) => some value
  | _ => none

def asBool? : Value → Option Bool
  | .bool value => some value
  | _ => none

def asArray? : Value → Option (List Value)
  | .array items => some items
  | _ => none

def asObject? : Value → Option Members
  | .object members => some members
  | _ => none

def isNull : Value → Bool
  | .null => true
  | _ => false

def member? (value : Value) (name : String) : Option Value :=
  match value with
  | .object members => (Members.get? members name).filter (!·.isNull)
  | _ => none

end Value

end Bearer.Json
