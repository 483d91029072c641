import Bearer.Json.Record
import Bearer.Key.Basic

namespace Bearer

structure KeyRecord where
  id : Uuid
  sealed : String
  expiresAt : Instant

namespace KeyRecord

open Json (Value Reader)

def toJson (record : KeyRecord) : Value :=
  .object [("id", .string record.id.text), ("key", .string record.sealed),
    ("expires_at", .string record.expiresAt.rfc3339)]

def text (record : KeyRecord) : String := record.toJson.pretty

/-! ## Reading -/

def readId : Reader Uuid :=
  Reader.meaning "a formatted UUID string" fun text =>
    (Uuid.read text).mapError fun fault => s!"UUID parsing failed: {fault.message}"

def readInstant : Reader Instant :=
  Reader.meaning "an RFC 3339 formatted date and time string" fun text =>
    (Instant.read text).mapError (·.message)

structure Draft where
  id : Option Uuid
  sealed : Option String
  expiresAt : Option Instant

def member (draft : Draft) (name : String) : Reader Draft := do
  if name = "id" then return { draft with id := ← Reader.once name draft.id readId }
  else if name = "key" then
    return { draft with sealed := ← Reader.once name draft.sealed Reader.string }
  else if name = "expires_at" then
    return { draft with expiresAt := ← Reader.once name draft.expiresAt readInstant }
  else do
    Reader.passOver
    return draft

def complete (draft : Draft) : Reader KeyRecord := do
  let id ← Reader.need "id" draft.id
  let sealed ← Reader.need "key" draft.sealed
  let expiresAt ← Reader.need "expires_at" draft.expiresAt
  return ⟨id, sealed, expiresAt⟩

def items : Reader KeyRecord := do
  let expected := "struct KeyRecord with 3 elements"
  let id ← Reader.itemAt 0 expected readId
  let sealed ← Reader.itemAt 1 expected Reader.string
  let expiresAt ← Reader.itemAt 2 expected readInstant
  return ⟨id, sealed, expiresAt⟩

def reader : Reader KeyRecord :=
  Reader.record "struct KeyRecord" (Reader.object member ⟨none, none, none⟩ complete) items

def read (text : Bytes) : Except Json.Fault KeyRecord := Reader.run reader text

end KeyRecord

end Bearer
