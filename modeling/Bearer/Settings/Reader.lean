import Bearer.Settings.Tree

namespace Bearer.Settings

inductive Cause where
  | invalidType (found expected : String)
  | unknownVariant (found expected : String)
  | refused (reason : String)
  deriving DecidableEq, Repr

def Cause.message : Cause → String
  | .invalidType found expected => s!"invalid type: found {found}, expected {expected}"
  | .unknownVariant found expected => s!"unknown variant: found `{found}`, expected `{expected}`"
  | .refused reason => reason

structure Fault where
  cause : Cause
  path : List String
  source : Source
  deriving DecidableEq, Repr

def Source.nameOf (path : List String) : Source → String
  | .file _ | .unknown => ".".intercalate ("default" :: path)
  | .environment => ".".intercalate (path.map String.toUpper)

def Source.text? : Source → Option String
  | .file path => some s!"{path} YAML file"
  | .environment => some "`SEALED_TOKEN_` environment variable(s)"
  | .unknown => none

def Fault.reason (fault : Fault) : String :=
  fault.cause.message ++
    if fault.path.isEmpty || fault.source == .unknown then ""
    else s!" for key {Text.quoted (fault.source.nameOf fault.path)}"

abbrev Reader (α : Type) := List String → Tree → Except Fault α

namespace Reader

variable {α : Type}

def fail (path : List String) (tree : Tree) (cause : Cause) : Except Fault α :=
  .error ⟨cause, path, tree.source⟩

def mismatch (path : List String) (tree : Tree) (expected : String) : Except Fault α :=
  fail path tree (.invalidType tree.describe expected)

def text : Reader String := fun path tree =>
  match tree with
  | .scalar _ (.text value) => .ok value
  | .scalar _ (.char value) => .ok value.toString
  | _ => mismatch path tree "a string"

def bool : Reader Bool := fun path tree =>
  match tree with
  | .scalar _ (.bool value) => .ok value
  | _ => mismatch path tree "a boolean"

def unit : Reader Unit := fun path tree =>
  match tree with
  | .scalar _ .unit => .ok ()
  | _ => mismatch path tree "unit"

def optional (reader : Reader α) : Reader (Option α) := fun path tree =>
  match tree with
  | .scalar _ .unit => .ok none
  | _ => (reader path tree).map some

def parsed (parse : String → Except String α) : Reader α := fun path tree => do
  match parse (← text path tree) with
  | .ok value => return value
  | .error reason => fail path tree (.refused reason)

def itemsFrom (reader : Reader α) (path : List String) : Nat → List Tree → Except Fault (List α)
  | _, [] => .ok []
  | index, item :: items => do
      let value ← reader (path ++ [toString index]) item
      return value :: (← itemsFrom reader path (index + 1) items)

def list (reader : Reader α) : Reader (List α) := fun path tree =>
  match tree with
  | .list _ items => itemsFrom reader path 0 items
  | _ => mismatch path tree "a sequence"

def variant (type expected : String) (variants : List (String × α)) : Reader α :=
  fun path tree =>
    let find (path : List String) (name : String) : Except Fault α :=
      match variants.lookup name with
      | some value => .ok value
      | none => fail path tree (.unknownVariant name expected)
    match tree with
    | .scalar _ (.text name) => find path name
    | .table _ ((name, inner) :: _) => do
        let value ← find (path ++ [name]) name
        unit (path ++ [name]) inner
        return value
    | .table _ [] => mismatch path tree "enum"
    | _ => mismatch path tree ("enum " ++ type)

/-! ## Sections -/

structure Part (α : Type) where
  name : String
  update : α → Reader α

def Part.of {β : Type} (name : String) (reader : Reader β) (update : α → β → α) : Part α :=
  ⟨name, fun section_ path tree => (reader path tree).map (update section_)⟩

def updateMember (parts : List (Part α)) (path : List String) (section_ : α)
    (member : String × Tree) : Except Fault α :=
  match parts.find? (·.name == member.1) with
  | some part => part.update section_ (path ++ [member.1]) member.2
  | none => .ok section_

def updateItems (path : List String) : Nat → List (Part α) → List Tree → α → Except Fault α
  | index, part :: parts, item :: items, section_ => do
      let section_ ← part.update section_ (path ++ [toString index]) item
      updateItems path (index + 1) parts items section_
  | _, _, _, section_ => .ok section_

def record (type : String) (parts : List (Part α)) (defaults : α) : Reader α := fun path tree =>
  match tree with
  | .table _ members => members.foldlM (updateMember parts path) defaults
  | .list _ items => updateItems path 0 parts items defaults
  | _ => mismatch path tree ("struct " ++ type)

end Reader

end Bearer.Settings
