import Bearer.Config.Basic
import Bearer.Host
import Bearer.Key.Ring
import Bearer.Key.Store.Any
import Bearer.Text.Blank
import Bearer.Token.Service

namespace Bearer

namespace KeyStoreConfig

def variableMark : List Char := "env:".toList

def masterKeyText (config : KeyStoreConfig) (environment : Variables) : Except ConfigFault String :=
  match config.masterKey with
  | none => .error .masterKeyMissing
  | some text =>
      if variableMark.isPrefixOf text.toList then
        let name := String.ofList (text.toList.drop variableMark.length)
        match environment.get? name with
        | some value => .ok value
        | none => .error (.masterKeyUnset name)
      else .ok text

def resolveMasterKey (config : KeyStoreConfig) (environment : Variables) :
    Except ConfigFault Bytes := do
  let text ← config.masterKeyText environment
  let trimmed := Utf8.encodeChars (Text.trim text.toList)
  let key ← (Base64Url.decode trimmed).mapError .masterKeyEncoding
  if key.length = keyLength then return key else throw (.masterKeyLength key.length)

def resolvePath (config : KeyStoreConfig) (host : Host) : Except ConfigFault String :=
  match config.path, host.home? with
  | some path, _ => .ok (host.expandHome path)
  | none, some home => .ok (FileSystem.join (FileSystem.join home ".sealed-token") "keys")
  | none, none => .error .noHome

/-- Opens the store. The directories that this makes stay, whether or not it succeeds. -/
def build (config : KeyStoreConfig) (host : Host) : Except Error Store × FileSystem :=
  match config.backend with
  | .memory => (.ok (.memory .empty), host.disk)
  | .file =>
      let resolved : Except ConfigFault (String × Bytes) := do
        return (← config.resolvePath host, ← config.resolveMasterKey host.environment)
      match resolved with
      | .error fault => (.error (.config fault), host.disk)
      | .ok (path, masterKey) =>
          let (opened, disk) := FileStore.openAt host.disk path masterKey
          ((opened.map Store.files).mapError (.store .opening), disk)

end KeyStoreConfig

namespace Config

def policy (config : Config) : TokenPolicy := ⟨config.tokens.requireExpiry⟩

def tokenService (config : Config) : TokenService :=
  .ofDomain config.issuer.domain config.policy

def start (config : Config) (host : Host) :
    Except Error (TokenService × Keeper Store) × FileSystem :=
  match config.keyStore.build host with
  | (.error error, disk) => (.error error, disk)
  | (.ok store, disk) =>
      match Keeper.load store with
      | (.error error, _) => (.error error, disk)
      | (.ok ring, trail) => (.ok (config.tokenService, ⟨ring, store, trail⟩), disk)

end Config

end Bearer
