import Bearer.Number.Layout
import Bearer.Text.Quoted

namespace Bearer.Settings

inductive Source where
  | file (path : String)
  | environment
  | unknown
  deriving DecidableEq, Repr

inductive Scalar where
  | unit
  | bool (value : Bool)
  | unsigned (value : Nat)
  | signed (value : Int)
  | float (value : Binary64)
  | text (value : String)
  | char (value : Char)
  deriving DecidableEq, Repr

inductive Tree where
  | scalar (source : Source) (scalar : Scalar)
  | list (source : Source) (items : List Tree)
  | table (source : Source) (members : List (String × Tree))

abbrev Members := List (String × Tree)

namespace Members

def insert (members : Members) (name : String) (tree : Tree) : Members :=
  match members with
  | [] => [(name, tree)]
  | (other, held) :: rest =>
      if name < other then (name, tree) :: (other, held) :: rest
      else if name = other then (name, tree) :: rest
      else (other, held) :: insert rest name tree

def ofList (members : List (String × Tree)) : Members :=
  members.foldl (fun sorted member => insert sorted member.1 member.2) []

end Members

namespace Tree

def source : Tree → Source
  | .scalar source _ => source
  | .list source _ => source
  | .table source _ => source

def text (source : Source) (value : String) : Tree := .scalar source (.text value)

def nested (source : Source) (path : List String) (tree : Tree) : Tree :=
  path.foldr (fun name inner => .table source [(name, inner)]) tree

mutual

def withSource (source : Source) : Tree → Tree
  | .scalar _ held => .scalar source held
  | .list _ items => .list source (itemsWithSource source items)
  | .table _ members => .table source (membersWithSource source members)

def itemsWithSource (source : Source) : List Tree → List Tree
  | [] => []
  | item :: items => withSource source item :: itemsWithSource source items

def membersWithSource (source : Source) : List (String × Tree) → List (String × Tree)
  | [] => []
  | (name, tree) :: rest => (name, withSource source tree) :: membersWithSource source rest

end

/-! ## Merging -/

mutual

/-- Tables are merged member by member. All else is replaced as a whole. -/
def merge (earlier : Tree) : Tree → Tree
  | .table source later =>
      match earlier with
      | .table _ members => .table source (mergeMembers members later)
      | _ => .table source later
  | later => later

def mergeMembers (members : Members) : List (String × Tree) → Members
  | [] => members
  | (name, tree) :: rest =>
      match members.lookup name with
      | some held => mergeMembers (members.insert name (merge held tree)) rest
      | none => mergeMembers (members.insert name tree) rest

end

end Tree

/-! ## Descriptions -/

def floatText (x : Binary64) : String :=
  if !x.isFinite && x.fraction != 0 then "NaN"
  else
    let size := if x.isFinite then x.shortest.positional "" else "inf"
    if x.isNegative then "-" ++ size else size

def Scalar.describe : Scalar → String
  | .unit => "unit"
  | .bool value => s!"bool {value}"
  | .unsigned value =>
      if value < Nat.pow 2 64 then s!"unsigned int `{value}`" else s!"integer `{value}` as u128"
  | .signed value =>
      if -Nat.pow 2 63 ≤ value then s!"signed int `{value}`" else s!"integer `{value}` as i128"
  | .float value => s!"float `{floatText value}`"
  | .text value => s!"string {Text.quoted value}"
  | .char value => s!"string {Text.quoted value.toString}"

def Tree.describe : Tree → String
  | .scalar _ held => held.describe
  | .list _ _ => "sequence"
  | .table _ _ => "map"

end Bearer.Settings
