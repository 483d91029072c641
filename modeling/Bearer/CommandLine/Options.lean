import Bearer.Host

namespace Bearer.CommandLine

inductive OptionName where
  | config
  | logLevel
  | logFormat
  | claims
  | ttl
  | encrypt
  | encrypted
  | help
  | version
  deriving DecidableEq, Repr

namespace OptionName

def long : OptionName → String
  | .config => "config"
  | .logLevel => "log-level"
  | .logFormat => "log-format"
  | .claims => "claims"
  | .ttl => "ttl"
  | .encrypt => "encrypt"
  | .encrypted => "encrypted"
  | .help => "help"
  | .version => "version"

def short? : OptionName → Option Char
  | .config => some 'c'
  | .help => some 'h'
  | .version => some 'V'
  | _ => none

def takesValue : OptionName → Bool
  | .config | .logLevel | .logFormat | .claims | .ttl => true
  | .encrypt | .encrypted | .help | .version => false

def environmentName? : OptionName → Option String
  | .config => some "SEALED_TOKEN_CONFIG"
  | .logLevel => some "SEALED_TOKEN_LOG_LEVEL"
  | .logFormat => some "SEALED_TOKEN_LOG_FORMAT"
  | _ => none

def accepts (name : OptionName) (value : String) : Bool := name != .config || value != ""

end OptionName

inductive CommandName where
  | sign
  | verify
  | keys
  deriving DecidableEq, Repr

def CommandName.word : CommandName → String
  | .sign => "sign"
  | .verify => "verify"
  | .keys => "keys"

def CommandName.ofWord? (word : String) : Option CommandName :=
  [.sign, .verify, .keys].find? (·.word == word)

def generalOptions : List OptionName := [.config, .logLevel, .logFormat]

inductive Level where
  | top
  | command (name : CommandName)
  deriving DecidableEq, Repr

namespace Level

def options : Level → List OptionName
  | .top => generalOptions ++ [.help, .version]
  | .command .sign => generalOptions ++ [.claims, .ttl, .encrypt, .help]
  | .command .verify => generalOptions ++ [.encrypted, .help]
  | .command .keys => generalOptions ++ [.help]

def longOption? (level : Level) (word : String) : Option OptionName :=
  level.options.find? (·.long == word)

def shortOption? (level : Level) (letter : Char) : Option OptionName :=
  level.options.find? (·.short? == some letter)

def takesToken (level : Level) : Bool := level == .command .verify

end Level

/-! ## Results -/

inductive Command where
  | sign (claims : String) (ttl : Option String) (encrypt : Bool)
  | verify (token : String) (encrypted : Bool)
  | keys
  deriving DecidableEq, Repr

structure Arguments where
  config : Option String
  logLevel : String
  logFormat : Option String
  command : Command
  deriving DecidableEq, Repr

inductive UsageError where
  | helpRequested
  | versionRequested
  | nothingGiven
  | missingCommand
  | unknownCommand (word : String)
  | unknownArgument (word : String)
  | missingArgument
  | invalidValue (name : OptionName)
  | unexpectedValue (name : OptionName)
  | repeated (name : OptionName)
  deriving DecidableEq, Repr

def UsageError.message : UsageError → String
  | .helpRequested => "help requested"
  | .versionRequested => "version requested"
  | .nothingGiven | .missingCommand => "a command is required: sign, verify or keys"
  | .unknownCommand word => s!"unrecognized subcommand '{word}'"
  | .unknownArgument word => s!"unexpected argument '{word}' found"
  | .missingArgument => "the following required arguments were not provided: <TOKEN>"
  | .invalidValue name => s!"a value is required for '--{name.long}' but none was supplied"
  | .unexpectedValue name => s!"unexpected value for '--{name.long}' found; no more were expected"
  | .repeated name => s!"the argument '--{name.long}' cannot be used multiple times"

end Bearer.CommandLine
