import DocumentStore.Entity.Basic

/-!
# Content types

A content type has an identifier in words and belongs to groups.
-/

namespace DocumentStore

/-- A type of content objects. -/
structure ContentType where
  id : Int64
  identifier : String
  groupIds : List Int64
  deriving DecidableEq, Repr

open Format

namespace ContentType

variable {φ : Type} [Format φ]

/-- Writes a content type. -/
def write (type : ContentType) : φ :=
  object [("id", int type.id), ("identifier", string type.identifier),
    ("contentTypeGroupIds", list int type.groupIds)]

/-- Reads a content type; nothing may be missing. -/
def read? (data : φ) : Option ContentType := do
  let fields ← fields? ["id", "identifier", "contentTypeGroupIds"] [] data
  return ⟨← required asInt? fields "id", ← required asString? fields "identifier",
    ← required (asList? asInt?) fields "contentTypeGroupIds"⟩

end ContentType

instance : Entity ContentType where
  collection := "Content\\Type"
  write := ContentType.write
  read? := ContentType.read?

end DocumentStore
