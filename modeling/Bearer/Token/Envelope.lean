import Bearer.Error
import Bearer.Json.Record

namespace Bearer

structure Header where
  alg : String
  enc : Option String
  kid : Option String
  typ : String
  deriving DecidableEq

namespace Header

open Json (Value Reader)

def hs256 : String := "HS256"
def a256gcm : String := "A256GCM"
def jwt : String := "JWT"

def plain : Header := ⟨hs256, none, none, jwt⟩

def encrypted : Header := { plain with enc := some a256gcm }

def isEncrypted (header : Header) : Bool := header.enc.isSome

def toJson (header : Header) : Value :=
  .object <|
    ("alg", .string header.alg) ::
      (header.enc.map fun enc => ("enc", Value.string enc)).toList ++
      (header.kid.map fun kid => ("kid", Value.string kid)).toList ++
      [("typ", .string header.typ)]

/-! ## Reading -/

structure Draft where
  alg : Option String
  enc : Option (Option String)
  kid : Option (Option String)
  typ : Option String

def member (draft : Draft) (name : String) : Reader Draft := do
  if name = "alg" then return { draft with alg := ← Reader.once name draft.alg Reader.string }
  else if name = "enc" then
    return { draft with enc := ← Reader.once name draft.enc (Reader.nullable Reader.string) }
  else if name = "kid" then
    return { draft with kid := ← Reader.once name draft.kid (Reader.nullable Reader.string) }
  else if name = "typ" then return { draft with typ := ← Reader.once name draft.typ Reader.string }
  else do
    Reader.passOver
    return draft

def complete (draft : Draft) : Reader Header := do
  let alg ← Reader.need "alg" draft.alg
  return ⟨alg, draft.enc.join, draft.kid.join, draft.typ.getD ""⟩

def items : Reader Header := do
  let alg ← Reader.itemAt 0 "struct Header with 4 elements" Reader.string
  let enc ← Reader.item? false (Reader.nullable Reader.string)
  let kid ← Reader.item? false (Reader.nullable Reader.string)
  let typ ← Reader.item? false Reader.string
  return ⟨alg, enc.join, kid.join, typ.getD ""⟩

def reader : Reader Header :=
  Reader.record "struct Header" (Reader.object member ⟨none, none, none, none⟩ complete) items

def read (text : Bytes) : Except Json.Fault Header := Reader.run reader text

end Header

def encodeSegment (bytes : Bytes) : String := Base64Url.encode bytes

structure Envelope where
  header64 : String
  payload64 : String
  signature64 : String
  deriving DecidableEq

namespace Envelope

def dot : Char := '.'

def split (token : String) : Except Error Envelope :=
  match token.toList.splitOn dot with
  | [header, payload, signature] =>
      .ok ⟨String.ofList header, String.ofList payload, String.ofList signature⟩
  | _ => .error (.malformedToken .segmentCount)

def signingInput (envelope : Envelope) : String :=
  envelope.header64 ++ "." ++ envelope.payload64

def token (envelope : Envelope) : String := envelope.signingInput ++ "." ++ envelope.signature64

def decode (segment what : String) : Except Error Bytes :=
  (Base64Url.decode (Utf8.encode segment)).mapError fun fault =>
    .malformedToken (.encoding what fault)

def header (envelope : Envelope) : Except Error Header := do
  let bytes ← decode envelope.header64 "header"
  (Header.read bytes).mapError fun fault => .malformedToken (.header (fault.message bytes))

def payload (envelope : Envelope) : Except Error Bytes := decode envelope.payload64 "payload"

def signature (envelope : Envelope) : Except Error Bytes :=
  decode envelope.signature64 "signature"

end Envelope

end Bearer
