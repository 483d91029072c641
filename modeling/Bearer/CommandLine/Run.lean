import Bearer.CommandLine.Arguments
import Bearer.Config.Load
import Bearer.Config.Resolve

namespace Bearer.CommandLine

structure Outcome where
  exit : Nat
  output : String
  notices : List String

structure Surroundings where
  host : Host
  now : Instant
  entropy : Entropy

abbrev RunM := ExceptT Error (StateM FileSystem)

def lines (texts : List String) : String := String.join (texts.map (· ++ "\n"))

def memoryWarning : String :=
  "⚠️  key_store.backend is memory: tokens cannot be verified by a later run"

/-! ## The key ring -/

def start (config : Config) (host : Host) : RunM (TokenService × Keeper Store) := do
  let (outcome, disk) := config.start { host with disk := ← get }
  set disk
  match outcome with
  | .ok started => return started
  | .error error => throw error

def onKeeper {α : Type} (keeper : Keeper Store) (action : KeeperM Store α) : RunM α := do
  let (outcome, keeper) := action.run.run keeper
  match keeper.store with
  | .files store => set store.disk
  | .memory _ => pure ()
  match outcome with
  | .ok found => return found
  | .error error => throw error

/-! ## Signing -/

def lifetime (config : Config) (ttl : Option String) : Except ConfigFault Span := do
  let duration ← match ttl with
    | some text => (Duration.parse text).mapError (.lifetime text)
    | none => pure config.tokens.defaultTtl
  match duration.toSpan? with
  | some span => return span
  | none => throw .lifetimeOutOfRange

def readClaims (text : String) : Except Error Claims :=
  let bytes := Utf8.encode text
  (Claims.read bytes).mapError fun fault => .malformedClaims (.argument (fault.message bytes))

def expiringClaims (config : Config) (text : String) (ttl : Option String) (now : Instant) :
    Except Error Claims := do
  let span ← (lifetime config ttl).mapError .config
  let claims ← readClaims text
  claims.expiresIn now span

def sign (config : Config) (around : Surroundings) (claims : String) (ttl : Option String)
    (encrypt : Bool) : RunM String := do
  let (service, keeper) ← start config around.host
  let claims ← expiringClaims config claims ttl around.now
  let token ← onKeeper keeper <|
    if encrypt then service.signEncrypted claims none none around.now around.entropy
    else service.signPlain claims none around.now around.entropy
  return token ++ "\n"

/-! ## Verifying -/

def verify (config : Config) (around : Surroundings) (token : String) (encrypted : Bool) :
    RunM String := do
  let (service, keeper) ← start config around.host
  let claims ←
    if encrypted then
      onKeeper keeper (service.verifyEncrypted token none none around.now around.entropy)
    else match service.verifyPlain keeper.ring token none around.now with
      | .ok claims => pure claims
      | .error error => throw error
  return claims.toJson.pretty ++ "\n"

/-! ## Listing keys -/

def keyLine (now : Instant) (key : Key) : String :=
  let state := if key.isValid now then "active" else "expired"
  s!"  {key.id.text}  expires {key.expiresAt.rfc3339Offset}  [{state}]"

def keyLines (now : Instant) (keyClass : KeyClass) (keys : KeyTable) : List String :=
  s!"{keyClass.name} keys ({keys.length}):" :: (KeyRing.sortByExpiry keys).map (keyLine now)

def listKeys (config : Config) (around : Surroundings) : RunM String := do
  let (built, disk) := config.keyStore.build { around.host with disk := ← get }
  set disk
  let store ← match built with
    | .ok store => pure store
    | .error error => throw error
  let keys (keyClass : KeyClass) : Except Error KeyTable :=
    (KeyStore.keys keyClass store).mapError (.store (.listing (keyClass == .signing)))
  let signing ← keys .signing
  let encryption ← keys .encryption
  if signing.isEmpty && encryption.isEmpty then return "No keys persisted.\n"
  let found := keyLines around.now .signing signing ++ keyLines around.now .encryption encryption
  return lines found

/-! ## The whole -/

def perform (config : Config) (around : Surroundings) : Command → RunM String
  | .sign claims ttl encrypt => sign config around claims ttl encrypt
  | .verify token encrypted => verify config around token encrypted
  | .keys => listKeys config around

def warnings (config : Config) : Command → List String
  | .sign _ _ _ => if config.keyStore.backend = .memory then [memoryWarning] else []
  | _ => []

def failureLine (error : Error) : String := s!"❌ {error.message}"

def versionLine : String := "sealed-token 0.1.0\n"

def helpLines : List String := [
  "Issue and verify signed or encrypted bearer tokens",
  "",
  "Usage: sealed-token [OPTIONS] <COMMAND>",
  "",
  "Commands:",
  "  sign    Sign a claim set and print the token",
  "  verify  Verify a token and print its claims as JSON",
  "  keys    List persisted keys (ids and expiries only)",
  "  help    Print this message or the help of the given subcommand(s)"]

def usageOutcome : UsageError → Outcome
  | .helpRequested => ⟨0, lines helpLines, []⟩
  | .versionRequested => ⟨0, versionLine, []⟩
  | error => ⟨2, "", ["error: " ++ error.message]⟩

def runArguments (arguments : Arguments) (around : Surroundings) : Outcome × FileSystem :=
  match Config.load arguments.config around.host with
  | .error fault => (⟨1, "", [failureLine (.config fault)]⟩, around.host.disk)
  | .ok (config, host) =>
      let warned := warnings config arguments.command
      match (perform config { around with host } arguments.command).run.run host.disk with
      | (.ok output, disk) => (⟨0, output, warned⟩, disk)
      | (.error error, disk) => (⟨1, "", warned ++ [failureLine error]⟩, disk)

def run (words : List String) (around : Surroundings) : Outcome × FileSystem :=
  match parse around.host.environment words with
  | .error error => (usageOutcome error, around.host.disk)
  | .ok arguments => runArguments arguments around

end Bearer.CommandLine
