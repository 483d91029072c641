import Bearer.Yaml.Token

namespace Bearer.Yaml

structure Scalar where
  tag : Option Bytes
  text : String
  isPlain : Bool
  deriving DecidableEq, Repr

def Scalar.empty : Scalar := ⟨none, "", true⟩

inductive Event where
  | nothing
  | scalar (scalar : Scalar)
  | sequence (tag : Option Bytes)
  | sequenceEnd
  | mapping (tag : Option Bytes)
  | mappingEnd
  | reference (number : Nat)
  deriving DecidableEq, Repr

structure PlacedEvent where
  event : Event
  mark : Mark
  deriving DecidableEq, Repr

/-! ## Reading tokens -/

structure Composer where
  tokens : Tokens
  handles : Handles
  events : Array PlacedEvent
  numbers : List (String × Nat)
  anchors : List (Nat × Nat)

abbrev EventM := ExceptT Fault (StateM Composer)

namespace Event

def peek : EventM (Option Token) := do
  let tokens := (← get).tokens
  match tokens.list, tokens.fault with
  | next :: _, _ => return some next.token
  | [], some fault => throw fault
  | [], none => return none

def here : EventM Mark := do
  let _ ← peek
  let tokens := (← get).tokens
  return match tokens.list with
    | next :: _ => next.mark
    | [] => tokens.stop

def skip : EventM Unit :=
  modify fun composer =>
    { composer with tokens := { composer.tokens with list := composer.tokens.list.tail } }

def fail {α : Type} (cause : Cause) (origin : Mark) : EventM α := do
  throw (Flaw.since ⟨cause, ← here⟩ origin)

def isAhead (tokens : List Token) : EventM Bool := do
  return (← peek).any tokens.contains

def eat (token : Token) : EventM Bool := do
  if ← isAhead [token] then do
    skip
    return true
  else return false

def emit (event : Event) (mark : Mark) : EventM Unit :=
  modify fun composer => { composer with events := composer.events.push ⟨event, mark⟩ }

structure Properties where
  mark : Mark
  anchor : Option String
  tag : Option Bytes

def Properties.isEmpty (properties : Properties) : Bool :=
  properties.anchor.isNone && properties.tag.isNone

/-- Gives the next event to a name. As many numbers are in use as there are names, so after a name
has been given twice the next new one gets a number that is in use. -/
def register (name : String) : EventM Unit :=
  modify fun composer =>
    let number := composer.numbers.length
    { composer with
      numbers := (name, number) :: composer.numbers.filter (·.1 != name)
      anchors := (number, composer.events.size) :: composer.anchors }

def emitNode (properties : Properties) (event : Event) : EventM Unit := do
  if let some name := properties.anchor then register name
  emit event properties.mark

def emitEmpty (mark : Mark) : EventM Unit := emit (.scalar .empty) mark

/-! ## Properties -/

def anchor? : EventM (Option String) := do
  match ← peek with
  | some (.anchor name) => do
      skip
      return some name
  | _ => return none

def tag? : EventM (Option (Tag × Mark)) := do
  match ← peek with
  | some (.tag tag) => do
      let mark ← here
      skip
      return some (tag, mark)
  | _ => return none

def properties : EventM Properties := do
  let mark ← here
  let first ← anchor?
  let tag ← tag?
  let anchor ← if first.isNone && tag.isSome then anchor? else pure first
  let _ ← peek
  match tag with
  | none => return ⟨mark, anchor, none⟩
  | some (tag, place) =>
      match tag.resolve? (← get).handles with
      | some tag => return ⟨mark, anchor, some tag⟩
      | none => throw (Flaw.since ⟨.unknownHandle, place⟩ mark)

def referTo (name : String) : EventM Unit := do
  let mark ← here
  match (← get).numbers.lookup name with
  | some number => do
      emit (.reference number) mark
      skip
  | none => fail .unknownName mark

/-! ## Nodes

The first argument of each of these bounds the number of calls. The loops over the parts of a
collection know where it started. -/

def behind : EventM Mark := do return (← here).nextColumn 1

mutual

def node (fuel : Nat) (isBlock allowsEntries : Bool) : EventM Unit :=
  match fuel with
  | 0 => do fail (.missingContent isBlock) (← here)
  | fuel + 1 => do
      match ← peek with
      | some (.reference name) => referTo name
      | _ => do content fuel isBlock allowsEntries (← properties)

def content (fuel : Nat) (isBlock allowsEntries : Bool) (found : Properties) : EventM Unit :=
  match fuel with
  | 0 => fail (.missingContent isBlock) found.mark
  | fuel + 1 => do
      let mark ← here
      match ← peek with
      | some (.scalar text isPlain) => do
          emitNode found (.scalar ⟨found.tag, text, isPlain⟩)
          skip
      | some .flowSequence => do
          emitNode found (.sequence found.tag)
          skip
          flowItems fuel mark true
      | some .flowMapping => do
          emitNode found (.mapping found.tag)
          skip
          flowMembers fuel mark true
      | next => do
          if next = some .blockEntry ∧ allowsEntries then do
            emitNode found (.sequence found.tag)
            entries fuel
          else if next = some .blockSequence ∧ isBlock then do
            emitNode found (.sequence found.tag)
            skip
            blockItems fuel mark
          else if next = some .blockMapping ∧ isBlock then do
            emitNode found (.mapping found.tag)
            skip
            blockMembers fuel mark
          else if found.isEmpty then fail (.missingContent isBlock) found.mark
          else emitNode found (.scalar { Scalar.empty with tag := found.tag })

def nodeUnless (fuel : Nat) (isBlock allowsEntries : Bool) (ends : List Token) (absent : Mark) :
    EventM Unit :=
  match fuel with
  | 0 => fail (.missingContent isBlock) absent
  | fuel + 1 => do
      if ← isAhead ends then emitEmpty absent else node fuel isBlock allowsEntries

def blockItems (fuel : Nat) (origin : Mark) : EventM Unit :=
  match fuel with
  | 0 => fail .missingEntry origin
  | fuel + 1 => do
      let mark ← here
      let absent ← behind
      if ← eat .blockEntry then do
        nodeUnless fuel true false [.blockEntry, .blockEnd] absent
        blockItems fuel origin
      else if ← eat .blockEnd then emit .sequenceEnd mark
      else fail .missingEntry origin

def entries (fuel : Nat) : EventM Unit :=
  match fuel with
  | 0 => do fail .missingEntry (← here)
  | fuel + 1 => do
      let mark ← here
      let absent ← behind
      if ← eat .blockEntry then do
        nodeUnless fuel true false [.blockEntry, .key, .value, .blockEnd] absent
        entries fuel
      else emit .sequenceEnd mark

def blockMembers (fuel : Nat) (origin : Mark) : EventM Unit :=
  match fuel with
  | 0 => fail .missingKey origin
  | fuel + 1 => do
      let mark ← here
      let absent ← behind
      if ← eat .key then do
        nodeUnless fuel true true [.key, .value, .blockEnd] absent
        let mark ← here
        let absent ← behind
        if ← eat .value then nodeUnless fuel true true [.key, .value, .blockEnd] absent
        else emitEmpty mark
        blockMembers fuel origin
      else if ← eat .blockEnd then emit .mappingEnd mark
      else fail .missingKey origin

def flowValue (fuel : Nat) (stop : Token) : EventM Unit :=
  match fuel with
  | 0 => do fail (.missingContent false) (← here)
  | fuel + 1 => do
      if ← eat .value then nodeUnless fuel false false [.flowEntry, stop] (← here)
      else emitEmpty (← here)

/-- The items of a flow sequence; a pair among them is a mapping of one member. When the pair has no
key, the token that shows this is lost. -/
def flowItems (fuel : Nat) (origin : Mark) (isFirst : Bool) : EventM Unit :=
  match fuel with
  | 0 => fail .missingCommaOrBracket origin
  | fuel + 1 => do
      if !isFirst && !(← isAhead [.flowSequenceEnd]) then
        if !(← eat .flowEntry) then fail .missingCommaOrBracket origin
      let mark ← here
      if ← eat .flowSequenceEnd then emit .sequenceEnd mark
      else if ← eat .key then do
        emit (.mapping none) mark
        if ← isAhead [.value, .flowEntry, .flowSequenceEnd] then do
          emitEmpty (← behind)
          skip
        else node fuel false false
        flowValue fuel .flowSequenceEnd
        emit .mappingEnd (← here)
        flowItems fuel origin false
      else do
        node fuel false false
        flowItems fuel origin false

def flowMembers (fuel : Nat) (origin : Mark) (isFirst : Bool) : EventM Unit :=
  match fuel with
  | 0 => fail .missingCommaOrBrace origin
  | fuel + 1 => do
      if !isFirst && !(← isAhead [.flowMappingEnd]) then
        if !(← eat .flowEntry) then fail .missingCommaOrBrace origin
      let mark ← here
      if ← eat .flowMappingEnd then emit .mappingEnd mark
      else if ← eat .key then do
        nodeUnless fuel false false [.value, .flowEntry, .flowMappingEnd] (← here)
        flowValue fuel .flowMappingEnd
        flowMembers fuel origin false
      else do
        node fuel false false
        emitEmpty (← here)
        flowMembers fuel origin false

end

/-! ## Documents -/

def directives (fuel : Nat) (hasVersion : Bool) (handles : Handles) : EventM Unit :=
  match fuel with
  | 0 => do fail .missingDocumentStart (← here)
  | fuel + 1 => do
      match ← peek with
      | some (.directive (.version major minor)) => do
          if hasVersion then fail .repeatedVersion (← here)
          if major ≠ 1 ∨ (minor ≠ 1 ∧ minor ≠ 2) then fail .unknownVersion (← here)
          skip
          directives fuel true handles
      | some (.directive (.handle name start)) => do
          if (handles.lookup name).isSome then fail .repeatedHandle (← here)
          skip
          directives fuel hasVersion (handles ++ [(name, start)])
      | _ => modify fun composer => { composer with handles := handles ++ .standard }

def endsDocument : Option Token → Bool
  | none | some (.directive _) | some .documentStart | some .documentEnd => true
  | _ => false

def document (fuel : Nat) : EventM Unit := do
  let mark ← here
  match ← peek with
  | none => emit .nothing mark
  | some token => do
      if token = .documentEnd ∨ !endsDocument (some token) then node fuel true false
      else do
        directives fuel false []
        if !(← eat .documentStart) then fail .missingDocumentStart (← here)
        if endsDocument (← peek) then emitEmpty (← here) else node fuel true false
      let _ ← eat .documentEnd

end Event

structure Document where
  events : List PlacedEvent
  anchors : List (Nat × List PlacedEvent)
  fault : Option Fault
  isFollowed : Bool

def Document.read (text : String) : Document :=
  let tokens := Tokens.ofString text
  let fuel := 5 * tokens.list.length + 8
  let (result, composer) := (Event.document fuel).run.run ⟨tokens, .standard, #[], [], []⟩
  let events := composer.events.toList
  let rest := composer.tokens.list.dropWhile fun next => next.token == .documentEnd
  { events
    anchors := composer.anchors.map fun (number, index) => (number, events.drop index)
    fault := match result with
      | .ok _ => none
      | .error fault => some fault
    isFollowed := !rest.isEmpty || composer.tokens.fault.isSome }

end Bearer.Yaml
