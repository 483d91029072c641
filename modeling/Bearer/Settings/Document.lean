import Bearer.Number.Notation
import Bearer.Settings.Tree
import Bearer.Text.Hex
import Bearer.Yaml.Event

namespace Bearer.Settings

/-! ## Faults -/

inductive Way where
  | root
  | item (parent : Way) (index : Nat)
  | member (parent : Way) (name : String)
  | unnamed (parent : Way)
  | reference (parent : Way)
  deriving DecidableEq, Repr

def Way.text : Way → String
  | .root => "."
  | .item parent index => s!"{parent.text}[{index}]"
  | .member .root name => name
  | .member parent name => s!"{parent.text}.{name}"
  | .unnamed .root => "?"
  | .unnamed parent => s!"{parent.text}.?"
  | .reference parent => parent.text

inductive DocumentFault where
  | yaml (fault : Yaml.Fault)
  | invalidType (found expected : String) (way : Way) (mark : Yaml.Mark)
  | invalidValue (found expected : String) (way : Way) (mark : Yaml.Mark)
  | tooDeep (mark : Yaml.Mark)
  | tooManyReferences
  | severalDocuments

namespace DocumentFault

def withWay (way : Way) (reason : String) : String :=
  if way.text = "." then reason else s!"{way.text}: {reason}"

def message : DocumentFault → String
  | .yaml fault => fault.message
  | .invalidType found expected way mark =>
      withWay way s!"invalid type: {found}, expected {expected}" ++ mark.text
  | .invalidValue found expected way mark =>
      withWay way s!"invalid value: {found}, expected {expected}" ++ mark.text
  | .tooDeep mark => "recursion limit exceeded" ++ mark.text
  | .tooManyReferences => "repetition limit exceeded"
  | .severalDocuments =>
      "deserializing from YAML containing more than one document is not supported"

end DocumentFault

/-! ## Plain scalars -/

def isNull (text : String) : Bool := ["", "~", "null", "Null", "NULL"].contains text

def bool? (text : String) : Option Bool :=
  if ["true", "True", "TRUE"].contains text then some true
  else if ["false", "False", "FALSE"].contains text then some false
  else none

def radixValue? (base : Nat) (chars : List Char) : Option Nat :=
  if chars.isEmpty then none
  else chars.foldlM (fun value c => do
    let digit ← Hex.value? c
    if digit < base then some (value * base + digit) else none) 0

def hasLeadingZero : List Char → Bool
  | '0' :: c :: rest => (c :: rest).all Binary64.isDigit
  | _ => false

def magnitude? (chars : List Char) : Option Nat :=
  match chars with
  | '0' :: 'x' :: digits => radixValue? 16 digits
  | '0' :: 'o' :: digits => radixValue? 8 digits
  | '0' :: 'b' :: digits => radixValue? 2 digits
  | _ => if hasLeadingZero chars then none else radixValue? 10 chars

def integer? (chars : List Char) : Option Scalar :=
  match chars with
  | '-' :: rest => do
      let size ← magnitude? rest
      if size ≤ Nat.pow 2 127 then some (.signed (-size)) else none
  | '+' :: rest => do
      let size ← magnitude? rest
      if size < Nat.pow 2 128 then some (.unsigned size) else none
  | _ => do
      let size ← magnitude? chars
      if size < Nat.pow 2 128 then some (.unsigned size) else none

def infinities : List (String × Binary64) :=
  ([".inf", ".Inf", ".INF", "+.inf", "+.Inf", "+.INF"].map (·, Binary64.infinity)) ++
    (["-.inf", "-.Inf", "-.INF"].map (·, Binary64.infinity.negate)) ++
    ([".nan", ".NaN", ".NAN"].map (·, Binary64.notANumber))

def float? (text : String) : Option Binary64 :=
  match infinities.lookup text with
  | some value => some value
  | none => (Binary64.ofText? text.toList).filter Binary64.isFinite

def plainScalar (text : String) : Scalar :=
  if isNull text then .unit
  else match bool? text, integer? text.toList with
    | some value, _ => .bool value
    | none, some scalar => scalar
    | none, none =>
        if hasLeadingZero (Binary64.splitSign text.toList).2 then .text text
        else match float? text with
          | some value => .float value
          | none => .text text

/-! ## Tagged scalars -/

def sharedTag (name : String) : Bytes := Utf8.encode ("tag:yaml.org,2002:" ++ name)

def taggedScalar (tag : Bytes) (text : String) : Except String Scalar :=
  if tag = sharedTag "bool" then
    match bool? text with
    | some value => .ok (.bool value)
    | none => .error "a boolean"
  else if tag = sharedTag "int" then
    match integer? text.toList with
    | some scalar => .ok scalar
    | none => .error "an integer"
  else if tag = sharedTag "float" then
    match float? text with
    | some value => .ok (.float value)
    | none => .error "a float"
  else if tag = sharedTag "null" then
    if text ≠ "" ∧ isNull text then .ok .unit else .error "null"
  else .ok (.text text)

def untaggedScalar (held : Yaml.Scalar) : Scalar :=
  if held.isPlain then plainScalar held.text else .text held.text

def resolve (held : Yaml.Scalar) : Except String Scalar :=
  match held.tag with
  | none => .ok (untaggedScalar held)
  | some tag =>
      if tag.head? = some 0x21 ∧ held.isPlain then .ok (untaggedScalar held)
      else taggedScalar tag held.text

def rootKind : Scalar → String
  | .unit => "unit value"
  | .bool value => s!"boolean `{value}`"
  | .unsigned value =>
      if value < Nat.pow 2 64 then s!"integer `{value}`" else s!"integer `{value}` as u128"
  | .signed value =>
      if -Nat.pow 2 63 ≤ value then s!"integer `{value}`" else s!"integer `{value}` as i128"
  | .float value =>
      let text := floatText value
      let point := if value.isFinite && !text.toList.contains '.' then ".0" else ""
      s!"floating point `{text}{point}`"
  | .text value => s!"string {Text.quoted value}"
  | .char value => s!"character `{value}`"

/-! ## Reading events -/

structure Replay where
  events : List Yaml.PlacedEvent
  budget : Nat

abbrev ReplayM := StateT Replay (Except DocumentFault)

namespace Replay

variable {α : Type} (document : Yaml.Document)

def peek : ReplayM Yaml.PlacedEvent := do
  match (← get).events, document.fault with
  | event :: _, _ => return event
  | [], some fault => throw (.yaml fault)
  | [], none => return ⟨.nothing, .start⟩

def skip : ReplayM Unit := modify fun replay => { replay with events := replay.events.tail }

def next : ReplayM Yaml.PlacedEvent := do
  let placed ← peek document
  skip
  return placed

def along (number : Nat) (reader : ReplayM α) : ReplayM α := do
  let replay ← get
  match replay.budget with
  | 0 => throw .tooManyReferences
  | budget + 1 => do
      set (Replay.mk ((document.anchors.lookup number).getD []) budget)
      let result ← reader
      modify fun after => { after with events := replay.events }
      return result

def deeper (depth : Nat) (mark : Yaml.Mark) : ReplayM Nat :=
  match depth with
  | 0 => throw (.tooDeep mark)
  | depth + 1 => return depth

def meaning (way : Way) (mark : Yaml.Mark) (held : Yaml.Scalar) : ReplayM Scalar :=
  match resolve held with
  | .ok scalar => return scalar
  | .error expected =>
      throw (.invalidValue (Scalar.text held.text).describe expected way mark)

def describe (way : Way) (placed : Yaml.PlacedEvent) : ReplayM String := do
  match placed.event with
  | .scalar held => return rootKind (← meaning way placed.mark held)
  | .sequence _ | .sequenceEnd => return "sequence"
  | _ => return "map"

/-! ### Names -/

def textOf (way : Way) (placed : Yaml.PlacedEvent) : ReplayM String := do
  match placed.event with
  | .scalar held => return held.text
  | _ => throw (.invalidType (← describe way placed) "a string" way placed.mark)

def name (way : Way) : ReplayM (String × Way) := do
  let placed ← next document
  match placed.event with
  | .reference number => do
      let text ← along document number do textOf (.reference way) (← next document)
      return (text, .unnamed way)
  | _ => do
      let text ← textOf way placed
      return (text, .member way text)

/-! ### Values -/

/-- A member of this name gives the number of a source. -/
def identityName : String := "___figment_value_id"

/-- A member of this name stands for the whole table. -/
def contentName : String := "___figment_value_value"

structure Draft where
  members : Members
  identity : Option Nat
  content : Option Tree

def Draft.tree (source : Source) (draft : Draft) : Tree :=
  match draft.content, draft.identity with
  | none, _ => .table source draft.members
  | some tree, none => tree
  | some tree, some identity =>
      -- The last 62 bits are the number; zero leaves the source as it is.
      tree.withSource (if identity % Nat.pow 2 62 = 0 then source else .unknown)

def identityOf : Scalar → Option Nat
  | .unsigned value => if value < Nat.pow 2 64 then some value else none
  | .signed value => if -Nat.pow 2 63 ≤ value then some (value % Nat.pow 2 64).toNat else none
  | _ => none

def identityAt (way : Way) (placed : Yaml.PlacedEvent) : ReplayM Nat := do
  let refuse {β : Type} (found : String) : ReplayM β :=
    throw (.invalidType found "a 64-bit metadata id integer" way placed.mark)
  match placed.event with
  | .scalar held => do
      if (held.tag.bind Yaml.applicationName?).isSome then refuse "enum"
      let scalar ← meaning way placed.mark held
      match identityOf scalar with
      | some number => return number
      | none => refuse (rootKind scalar)
  | .sequence tag | .mapping tag =>
      if (tag.bind Yaml.applicationName?).isSome then refuse "enum"
      else refuse (← describe way placed)
  | _ => refuse "map"

def identity (way : Way) : ReplayM Nat := do
  let placed ← next document
  match placed.event with
  | .reference number => along document number do identityAt (.reference way) (← next document)
  | _ => identityAt way placed

def nameOfTag? (isNamed : Bool) (tag : Option Bytes) : Option String :=
  if isNamed then none else tag.bind Yaml.applicationName?

def stepsOf (name : String) : List String :=
  ((name.toList.splitOn '.').map String.ofList).takeWhile fun (step : String) => !step.isEmpty

variable (source : Source)

mutual

/-- A value. The first argument bounds the number of calls, the second the depth of nesting. The
tag of a value is a name for it, and has its say before the value (`isNamed`). -/
def value (fuel depth : Nat) (way : Way) (isNamed : Bool) : ReplayM Tree :=
  match fuel with
  | 0 => throw (.tooDeep .start)
  | fuel + 1 => do
      let ⟨event, mark⟩ ← peek document
      let tag := match event with
        | .scalar held => held.tag
        | .sequence tag | .mapping tag => tag
        | _ => none
      match nameOfTag? isNamed tag with
      | some name => return .nested source (stepsOf name) (← value fuel depth way true)
      | none => do
          skip
          match event with
          | .reference number => along document number (value fuel depth (.reference way) false)
          | .scalar held =>
              if isNamed then return .scalar source (untaggedScalar held)
              else return .scalar source (← meaning way mark held)
          | .sequence _ | .sequenceEnd => do
              return .list source (← items fuel (← deeper depth mark) way 0)
          | _ => do
              return (← members fuel (← deeper depth mark) way ⟨[], none, none⟩).tree source

def items (fuel depth : Nat) (way : Way) (index : Nat) : ReplayM (List Tree) :=
  match fuel with
  | 0 => throw (.tooDeep .start)
  | fuel + 1 => do
      if (← peek document).event = .sequenceEnd then do
        skip
        return []
      else do
        let item ← value fuel depth (.item way index) false
        return item :: (← items fuel depth way (index + 1))

def members (fuel depth : Nat) (way : Way) (draft : Draft) : ReplayM Draft :=
  match fuel with
  | 0 => throw (.tooDeep .start)
  | fuel + 1 => do
      if (← peek document).event = .mappingEnd then do
        skip
        return draft
      else do
        let (name, inner) ← name document way
        if name = identityName then do
          let number ← identity document inner
          members fuel depth way { draft with identity := some number }
        else do
          let tree ← value fuel depth inner false
          if name = contentName then
            members fuel depth way { draft with content := some tree }
          else
            let inserted := draft.members.insert name tree
            members fuel depth way { draft with members := inserted }

end

def rootMembers (fuel depth : Nat) (held : Members) : ReplayM Members :=
  match fuel with
  | 0 => throw (.tooDeep .start)
  | fuel + 1 => do
      if (← peek document).event = .mappingEnd then do
        skip
        return held
      else do
        let (name, way) ← name document .root
        let tree ← value document source (fuel + 1) depth way false
        rootMembers fuel depth (held.insert name tree)

def maxDepth : Nat := 128

def root (fuel : Nat) : ReplayM Tree := do
  let placed ← next document
  match placed.event with
  | .nothing => return .table source []
  | .mapping _ => do
      let depth ← deeper maxDepth placed.mark
      return .table source (← rootMembers document source fuel depth [])
  | _ => do
      if let .scalar held := placed.event then
        if held.isPlain && held.text.isEmpty then return .table source []
      throw (.invalidType (← describe .root placed) "a map" .root placed.mark)

end Replay

def referencesPerEvent : Nat := 100

def Tree.ofYaml (source : Source) (text : String) : Except DocumentFault Tree := do
  let document := Yaml.Document.read text
  let size := document.events.length
  let fuel := (Replay.maxDepth + 2) * (size + 8)
  let tree ← (Replay.root document source fuel).run' ⟨document.events, size * referencesPerEvent⟩
  match document.fault with
  | some fault => throw (.yaml fault)
  | none => if document.isFollowed then throw .severalDocuments else return tree

end Bearer.Settings
