import DocumentStore.Entity.Basic

/-!
# Content and its locations

A content object may have a name, an owner and any number of locations, the places in a tree where
it appears.
-/

namespace DocumentStore

/-- A place where a content object appears. -/
structure Location where
  id : Int64
  contentId : Int64
  parentId : Option Int64
  deriving DecidableEq, Repr

/-- A content object. -/
structure Content where
  id : Int64
  name : Option String
  ownerId : Option Int64
  locations : List Location
  deriving DecidableEq, Repr

open Format

namespace Location

variable {φ : Type} [Format φ]

/-- Writes a location. -/
def write (location : Location) : φ :=
  object [("id", int location.id), ("contentId", int location.contentId),
    ("parentId", option int location.parentId)]

/-- Reads a location; where the fields have names, the parent may be missing. -/
def read? (data : φ) : Option Location := do
  let fields ← fields? ["id", "contentId", "parentId"] [] data
  return ⟨← required asInt? fields "id", ← required asInt? fields "contentId",
    ← optional asInt? fields "parentId"⟩

end Location

namespace Content

variable {φ : Type} [Format φ]

/-- Writes a content object. -/
def write (content : Content) : φ :=
  object [("id", int content.id), ("name", option string content.name),
    ("ownerId", option int content.ownerId), ("locations", list Location.write content.locations)]

/-- Reads a content object. Where the fields have names, all but the identifier may be missing, and
in a list only the locations may. -/
def read? (data : φ) : Option Content := do
  let fields ← fields? ["id", "name", "ownerId"] ["locations"] data
  return ⟨← required asInt? fields "id", ← optional asString? fields "name",
    ← optional asInt? fields "ownerId",
    ← withDefault [] (asList? Location.read?) fields "locations"⟩

end Content

instance : Entity Location where
  collection := "Content\\Location"
  write := Location.write
  read? := Location.read?

instance : Entity Content where
  collection := "Content"
  write := Content.write
  read? := Content.read?

end DocumentStore
