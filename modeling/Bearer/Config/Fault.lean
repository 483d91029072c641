import Bearer.Base64Url
import Bearer.Crypto.Seal
import Bearer.Settings.Document
import Bearer.Settings.Reader
import Bearer.Time.Duration

namespace Bearer

inductive ConfigFault where
  | fileMissing (path : String)
  | fileNotUtf8 (source : Settings.Source)
  | document (fault : Settings.DocumentFault) (source : Settings.Source)
  | setting (fault : Settings.Fault)
  | masterKeyMissing
  | masterKeyUnset (name : String)
  | masterKeyEncoding (fault : Base64Url.DecodeError)
  | masterKeyLength (length : Nat)
  | noHome
  | lifetime (text : String) (fault : DurationError)
  | lifetimeOutOfRange

namespace ConfigFault

def reason : ConfigFault → String
  | .fileMissing path => s!"Config file not found: {path}"
  | .fileNotUtf8 _ => "stream did not contain valid UTF-8"
  | .document fault _ => fault.message
  | .setting fault => fault.reason
  | .masterKeyMissing => "key_store.master_key is required for the file backend"
  | .masterKeyUnset name => s!"master key variable {name} is not set"
  | .masterKeyEncoding fault => s!"master key is not valid base64url: {fault.message}"
  | .masterKeyLength length => s!"master key must decode to {keyLength} bytes, got {length}"
  | .noHome => "cannot determine home directory"
  | .lifetime text fault => s!"invalid --ttl {text}: {fault.message}"
  | .lifetimeOutOfRange =>
      "ttl out of range: Source duration value is out of range for the target type"

def source? : ConfigFault → Option Settings.Source
  | .fileNotUtf8 source => some source
  | .document _ source => some source
  | .setting fault => some fault.source
  | _ => none

def message (fault : ConfigFault) : String :=
  match fault.source?.bind Settings.Source.text? with
  | some source => s!"{fault.reason} in {source}"
  | none => fault.reason

end ConfigFault

end Bearer
