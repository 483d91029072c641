import Bearer.CommandLine.Options

namespace Bearer.CommandLine

structure Pending where
  name : OptionName
  value : Option String

structure Given where
  values : List (OptionName × String)
  token : Option String
  pending : Option Pending

namespace Given

def empty : Given := ⟨[], none, none⟩

def value? (given : Given) (name : OptionName) : Option String := given.values.lookup name

def has (given : Given) (name : OptionName) : Bool := (given.value? name).isSome

def add (given : Given) (name : OptionName) (value : String) : Except UsageError Given :=
  if given.has name then .error (.repeated name)
  else if name.accepts value then .ok { given with values := given.values ++ [(name, value)] }
  else .error (.invalidValue name)

def settle (given : Given) : Except UsageError Given :=
  match given.pending with
  | none => .ok given
  | some ⟨name, none⟩ => .error (.invalidValue name)
  | some ⟨name, some value⟩ => { given with pending := none }.add name value

def awaited? (given : Given) : Option OptionName :=
  match given.pending with
  | some ⟨name, none⟩ => some name
  | _ => none

def take (given : Given) (name : OptionName) (attached : Option String) :
    Except UsageError Given :=
  match attached with
  | some value =>
      if name.takesValue then do (← given.settle).add name value
      else .error (.unexpectedValue name)
  | none => do
      let given ← given.settle
      if name.takesValue then return { given with pending := some ⟨name, none⟩ }
      else if name = .help then throw .helpRequested
      else if name = .version then throw .versionRequested
      else given.add name ""

end Given

/-! ## Single words -/

inductive Word where
  | escape
  | long (name : String) (attached : Option String)
  | short (letter : Char) (rest : List Char)
  | bare
  deriving DecidableEq

def splitValue (chars : List Char) : String × Option String :=
  match chars.span (· != '=') with
  | (name, []) => (String.ofList name, none)
  | (name, _ :: value) => (String.ofList name, some (String.ofList value))

def Word.ofString (word : String) : Word :=
  match word.toList with
  | ['-', '-'] => .escape
  | '-' :: '-' :: rest =>
      let (name, attached) := splitValue rest
      .long name attached
  | '-' :: letter :: rest => .short letter rest
  | _ => .bare

def attachedTo (rest : List Char) : Option String :=
  match rest with
  | [] => none
  | '=' :: value => some (String.ofList value)
  | value => some (String.ofList value)

def takeShort (level : Level) (given : Given) (word : String) (letter : Char)
    (rest : List Char) : Except UsageError Given :=
  match level.shortOption? letter with
  | none => .error (.unknownArgument word)
  | some name =>
      if name.takesValue then given.take name (attachedTo rest) else given.take name none

def takeLong (level : Level) (given : Given) (word name : String) (attached : Option String) :
    Except UsageError Given :=
  match level.longOption? name with
  | none => .error (.unknownArgument word)
  | some name => given.take name attached

/-- A word that is no option. Before the command it can only be meant for one, and behind two dashes
even the name of a command is not taken for one. -/
def takeBare (level : Level) (given : Given) (isEscaped : Bool) (word : String) :
    Except UsageError Given :=
  if level.takesToken && given.token.isNone then do
    return { ← given.settle with token := some word }
  else if level = .top ∧ ¬(isEscaped ∧ (word = "help" ∨ (CommandName.ofWord? word).isSome)) then
    .error (.unknownCommand word)
  else .error (.unknownArgument word)

/-! ## Parts of a command line -/

def readEscaped (level : Level) (given : Given) : List String → Except UsageError Given
  | [] => .ok given
  | word :: words => do readEscaped level (← takeBare level given true word) words

def readWords (level : Level) (given : Given) :
    List String → Except UsageError (Given × Option (String × List String))
  | [] => .ok (given, none)
  | word :: words =>
      let isCommand := word == "help" || (CommandName.ofWord? word).isSome
      if level = .top ∧ given.awaited?.isNone ∧ isCommand then .ok (given, some (word, words))
      else
        match Word.ofString word with
        | .escape => do return (← readEscaped level given words, none)
        | .long name attached => do
            readWords level (← takeLong level given word name attached) words
        | .short letter rest => do
            readWords level (← takeShort level given word letter rest) words
        | .bare =>
            match given.awaited? with
            | some name =>
                readWords level { given with pending := some ⟨name, some word⟩ } words
            | none => do readWords level (← takeBare level given false word) words

def addVariable (environment : Variables) (given : Given) (name : OptionName) :
    Except UsageError Given :=
  match name.environmentName?.bind environment.get? with
  | some value => if given.has name then .ok given else given.add name value
  | none => .ok given

def finishPart (environment : Variables) (given : Given) : Except UsageError (Given × Given) := do
  let given ← given.settle
  return (given, ← generalOptions.foldlM (addVariable environment) given)

/-! ## The whole -/

def helpOn : List String → UsageError
  | [] => .helpRequested
  | [word] =>
      if word = "help" ∨ (CommandName.ofWord? word).isSome then .helpRequested
      else .unknownCommand word
  | first :: second :: _ =>
      if first = "help" ∨ (CommandName.ofWord? first).isSome then .unknownCommand second
      else .unknownCommand first

def commandOf (name : CommandName) (given : Given) : Except UsageError Command :=
  match name with
  | .sign =>
      .ok (.sign ((given.value? .claims).getD "\x7b\x7d") (given.value? .ttl) (given.has .encrypt))
  | .verify =>
      match given.token with
      | some token => .ok (.verify token (given.has .encrypted))
      | none => .error .missingArgument
  | .keys => .ok .keys

/-- A general option: what stands behind the command counts most, then what stands in front of it,
and then its variable. -/
def general (behind front all : Given) (name : OptionName) : Option String :=
  ((behind.value? name).or (front.value? name)).or (all.value? name)

def parse (environment : Variables) (words : List String) : Except UsageError Arguments := do
  let (front, found) ← readWords .top .empty words
  match found with
  | none => do
      let (_, all) ← finishPart environment front
      throw (if all.values.isEmpty then .nothingGiven else .missingCommand)
  | some (word, rest) =>
      match CommandName.ofWord? word with
      | none => throw (helpOn rest)
      | some name => do
          let (behind, _) ← readWords (.command name) .empty rest
          let (behind, _) ← finishPart environment behind
          let command ← commandOf name behind
          let (front, all) ← finishPart environment front
          let option := general behind front all
          return ⟨option .config, (option .logLevel).getD "warn", option .logFormat, command⟩

end Bearer.CommandLine
