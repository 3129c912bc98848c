import DocumentStore.Collection

/-!
# Databases

A database holds collections by name. An unknown collection reads as an empty one, and it comes
into existence with the first record that is created in it.
-/

namespace DocumentStore

/-- Collections by name. -/
structure Database where
  collections : Std.ExtTreeMap String Collection

namespace Database

/-- The database without collections. -/
def empty : Database := ⟨∅⟩

/-- The collection of a name, empty where the name is unknown. -/
def collection (db : Database) (name : String) : Collection :=
  db.collections[name]?.getD Collection.empty

/-- The names of all collections, in ascending order. -/
def names (db : Database) : List String := db.collections.keys

/-- Puts a collection under a name. -/
def put (db : Database) (name : String) (collection : Collection) : Database :=
  ⟨db.collections.insert name collection⟩

/-- A collection is read back under its own name, and all others are as they were. -/
theorem collection_put (db : Database) (name : String) (collection : Collection) (other : String) :
    (db.put name collection).collection other =
      if name = other then collection else db.collection other := by
  unfold Database.collection put
  rw [Std.ExtTreeMap.getElem?_insert]
  by_cases h : name = other <;> simp [h]

/-- A put names its collection and keeps all other names. -/
theorem mem_names_put (db : Database) (name : String) (collection : Collection) (other : String) :
    other ∈ (db.put name collection).names ↔ name = other ∨ other ∈ db.names := by
  simp [names, put, Std.ExtTreeMap.mem_keys]

/-- The records of a collection, in the order in which they came. -/
def records (db : Database) (name : String) : List Document := (db.collection name).records.toList

/-- Creates a record in a collection; answers with its identifier. -/
def create (db : Database) (name : String) (fields : Document) : Except Fault (Nat × Database) :=
  match (db.collection name).create? fields with
  | none => .error (.sequenceExhausted name)
  | some (id, collection) => .ok (id, db.put name collection)

/-- Merges fields into the record that a loosely written identifier names; nothing where it names
no record. -/
def update? (db : Database) (name : String) (id : Value) (fields : Document) : Option Database := do
  let collection ← db.collections[name]?
  let updated ← collection.update? (← coerceId id) fields
  return db.put name updated

end Database

end DocumentStore
