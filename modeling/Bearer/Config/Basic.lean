import Bearer.Config.Fault
import Bearer.Json.Value

namespace Bearer

structure IssuerConfig where
  domain : String
  deriving DecidableEq

inductive KeyStoreBackend where
  | memory
  | file
  deriving DecidableEq

structure KeyStoreConfig where
  backend : KeyStoreBackend
  path : Option String
  masterKey : Option String
  deriving DecidableEq

structure TokenConfig where
  requireExpiry : Bool
  defaultTtl : Duration
  deriving DecidableEq

structure Config where
  envFiles : List String
  issuer : IssuerConfig
  keyStore : KeyStoreConfig
  tokens : TokenConfig
  deriving DecidableEq

/-! ## Defaults -/

def IssuerConfig.default : IssuerConfig := ⟨"localhost"⟩

def KeyStoreConfig.default : KeyStoreConfig := ⟨.memory, none, none⟩

def TokenConfig.default : TokenConfig := ⟨false, ⟨15 * 60, 0⟩⟩

def Config.default : Config := ⟨[], .default, .default, .default⟩

/-! ## Reading -/

open Settings (Reader)
open Settings.Reader (Part)

def IssuerConfig.reader : Reader IssuerConfig :=
  .record "IssuerConfig"
    [.of "domain" .text fun issuer domain => { issuer with domain }] .default

def KeyStoreBackend.reader : Reader KeyStoreBackend :=
  .variant "KeyStoreBackend" "`memory` or `file`" [("memory", .memory), ("file", .file)]

def KeyStoreConfig.reader : Reader KeyStoreConfig :=
  .record "KeyStoreConfig" [
    .of "backend" KeyStoreBackend.reader fun keyStore backend => { keyStore with backend },
    .of "path" (.optional .text) fun keyStore path => { keyStore with path },
    .of "master_key" (.optional .text) fun keyStore masterKey => { keyStore with masterKey }]
    .default

def readDuration (text : String) : Except String Duration :=
  (Duration.parse text).mapError DurationError.message

def TokenConfig.reader : Reader TokenConfig :=
  .record "TokenConfig" [
    .of "require_expiry" .bool fun tokens requireExpiry => { tokens with requireExpiry },
    .of "default_ttl" (.parsed readDuration) fun tokens defaultTtl => { tokens with defaultTtl }]
    .default

def Config.reader : Reader Config :=
  .record "Config" [
    .of "env_files" (.list .text) fun config envFiles => { config with envFiles },
    .of "issuer" IssuerConfig.reader fun config issuer => { config with issuer },
    .of "key_store" KeyStoreConfig.reader fun config keyStore => { config with keyStore },
    .of "tokens" TokenConfig.reader fun config tokens => { config with tokens }]
    .default

/-! ## JSON -/

open Json (Value)

def KeyStoreBackend.name : KeyStoreBackend → String
  | .memory => "memory"
  | .file => "file"

def Json.Value.ofOption (text : Option String) : Value :=
  match text with
  | some text => .string text
  | none => .null

/-- The lifetime is written in whole seconds. -/
def TokenConfig.toJson (tokens : TokenConfig) : Value :=
  .object [("default_ttl", .string tokens.defaultTtl.text),
    ("require_expiry", .bool tokens.requireExpiry)]

def KeyStoreConfig.toJson (keyStore : KeyStoreConfig) : Value :=
  .object [("backend", .string keyStore.backend.name),
    ("master_key", .ofOption keyStore.masterKey), ("path", .ofOption keyStore.path)]

def IssuerConfig.toJson (issuer : IssuerConfig) : Value :=
  .object [("domain", .string issuer.domain)]

def Config.toJson (config : Config) : Value :=
  .object [("env_files", .array (config.envFiles.map .string)),
    ("issuer", config.issuer.toJson), ("key_store", config.keyStore.toJson),
    ("tokens", config.tokens.toJson)]

end Bearer
