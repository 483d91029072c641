import Bearer.Error
import Bearer.Json.Record

namespace Bearer

structure Claims where
  iss : Option String
  iat : Option Int
  exp : Option Int
  extra : Json.Members

namespace Claims

open Json (Value Reader Members)

def empty : Claims := ⟨none, none, none, []⟩

def isReserved (name : String) : Bool := name == "iss" || name == "iat" || name == "exp"

/-! ## Building -/

/-- Adds a claim. One with a reserved name is left out. -/
def insert (claims : Claims) (name : String) (value : Value) : Claims :=
  if isReserved name then claims else { claims with extra := claims.extra.insert name value }

def subject (claims : Claims) (name : String) : Claims := claims.insert "sub" (.string name)

def expiresAt (claims : Claims) (t : Instant) : Claims := { claims with exp := some t.second }

def expiresIn (claims : Claims) (now : Instant) (lifetime : Span) : Except Error Claims :=
  match now.add? lifetime with
  | some t => .ok (claims.expiresAt t)
  | none => .error (.malformedClaims (.expiryOutOfRange lifetime))

/-! ## Views -/

def get? (claims : Claims) (name : String) : Option Value := claims.extra.get? name

def sub? (claims : Claims) : Option String := (claims.get? "sub").bind Value.asString?

/-- Whether the expiry lies before `now`; it is compared in whole seconds. -/
def isExpired (claims : Claims) (now : Instant) : Bool :=
  match claims.exp with
  | some exp => exp < now.second
  | none => false

/-! ## JSON -/

def typedFields (claims : Claims) : Members :=
  (claims.iss.map fun iss => ("iss", Value.string iss)).toList ++
    (claims.iat.map fun iat => ("iat", Value.int iat)).toList ++
    (claims.exp.map fun exp => ("exp", Value.int exp)).toList

def toJson (claims : Claims) : Value := .object (claims.typedFields ++ claims.extra)

structure Draft where
  iss : Option (Option String)
  iat : Option Int
  exp : Option Int
  extra : Members

def member (draft : Draft) (name : String) : Reader Draft := do
  if name = "iss" then
    return { draft with iss := ← Reader.once name draft.iss (Reader.nullable Reader.string) }
  else if name = "iat" then
    return { draft with iat := ← Reader.once name draft.iat Reader.int64 }
  else if name = "exp" then
    return { draft with exp := ← Reader.once name draft.exp Reader.int64 }
  else do
    Reader.readColon
    let value ← Reader.value (Reader.maxDepth - 1)
    return { draft with extra := draft.extra.insert name value }

def ofDraft (draft : Draft) : Claims := ⟨draft.iss.join, draft.iat, draft.exp, draft.extra⟩

def reader : Reader Claims := do
  if (← Reader.peekSolid) = some Reader.openBrace then
    Reader.object member ⟨none, none, none, []⟩ fun draft => return ofDraft draft
  else Reader.mismatch "struct Claims"

def read (text : Bytes) : Except Json.Fault Claims := Reader.run reader text

end Claims

end Bearer
