import Bearer.Json.Printer
import Bearer.Key.Basic

namespace Bearer

inductive AuditEvent where
  | loaded (keyClass : KeyClass) (key : Key)
  | minted (keyClass : KeyClass) (key : Key)
  | evicted (keyClass : KeyClass) (id : Uuid)
  | rotationFailed (keyClass : KeyClass) (reason : String)

namespace AuditEvent

open Json (Value)

def head (name : String) (keyClass : KeyClass) : List (String × Value) :=
  [("event", .string name), ("class", .string keyClass.name)]

def keyFields (key : Key) : List (String × Value) :=
  [("kid", .string key.id.text), ("expires_at", .string key.expiresAt.rfc3339)]

def toJson : AuditEvent → Value
  | .loaded keyClass key => .object (head "key.loaded" keyClass ++ keyFields key)
  | .minted keyClass key => .object (head "key.minted" keyClass ++ keyFields key)
  | .evicted keyClass id => .object (head "key.evicted" keyClass ++ [("kid", .string id.text)])
  | .rotationFailed keyClass reason =>
      .object (head "key.rotation_failed" keyClass ++ [("reason", .string reason)])

end AuditEvent

end Bearer
