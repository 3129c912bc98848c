import DocumentStore.Fault
import DocumentStore.Identifier
import Std.Data.ExtTreeMap

/-!
# Collections

A collection holds its records in the order in which they came, an index from identifiers to
positions, and the identifier that the next record will get. Every stored record carries its
identifier as its first field.

* `Collection.create?` stores a record under the next identifier. It fails, and changes nothing,
  when that identifier is `maxId`: the sequence could not go on from there.
* `Collection.replace?` writes over a stored record and leaves its place and its identifier alone.
* `Collection.ofRecords` places records that carry identifiers first and then numbers the others.
-/

namespace DocumentStore

/-- The records of one collection, with their index and the sequence of their identifiers. -/
structure Collection where
  /-- The records, in the order in which they came. -/
  records : Array Document
  /-- The position of the record with a given identifier. -/
  positions : Std.ExtTreeMap Nat Nat
  /-- The identifier that the next record will get. -/
  nextId : Nat

namespace Collection

/-- The collection without records; its sequence starts at one. -/
def empty : Collection := ⟨#[], ∅, 1⟩

/-- The stored form of a record: its identifier, then its other fields in order. -/
def stored (id : Nat) (fields : Document) : Document :=
  (idField, idValue id) :: fields.without idField

/-- A stored record answers with its identifier, and for all other fields as the fields it was
made from. -/
theorem get?_stored (id : Nat) (fields : Document) (name : String) :
    (stored id fields).get? name = if idField = name then some (idValue id) else fields.get? name := by
  rw [stored, Fields.get?_cons, Fields.get?_without]
  split <;> rfl

/-- Puts a record at the end, under a given identifier. -/
def push (collection : Collection) (id : Nat) (fields : Document) : Collection :=
  { collection with
    records := collection.records.push (stored id fields)
    positions := collection.positions.insert id collection.records.size }

/-- Stores a record under the next identifier and moves the sequence on. -/
def create? (collection : Collection) (fields : Document) : Option (Nat × Collection) :=
  if collection.nextId = maxId then none
  else
    let id := collection.nextId
    some (id, { collection.push id fields with nextId := id + 1 })

/-- A collection stops handing out identifiers at the end of their range, and nowhere before. -/
theorem create?_eq_none_iff {collection : Collection} {fields : Document} :
    collection.create? fields = none ↔ collection.nextId = maxId := by
  unfold create?
  split <;> simp_all

/-- The record with a given identifier. -/
def get? (collection : Collection) (id : Nat) : Option Document :=
  collection.positions[id]?.bind fun position => collection.records[position]?

/-- Writes over the record with a given identifier, if there is one. -/
def replace? (collection : Collection) (id : Nat) (fields : Document) : Option Collection :=
  collection.positions[id]?.map fun position =>
    { collection with records := collection.records.setIfInBounds position (stored id fields) }

/-- Merges fields into the record with a given identifier, if there is one. The record keeps its
identifier, whatever the fields say about it. -/
def update? (collection : Collection) (id : Nat) (fields : Document) : Option Collection :=
  (collection.get? id).bind fun record =>
    collection.replace? id (record.merge (fields.without idField))

/-! ## Loading records -/

/-- The largest identifier among records, zero where none of them carries one. -/
def largestId (records : List Document) : Nat :=
  (records.filterMap recordId?).foldl max 0

/-- Places the records that carry identifiers, in order. -/
def place (name : String) (collection : Collection) :
    List Document → Except Fault Collection
  | [] => .ok collection
  | record :: rest =>
    match recordId? record with
    | none => place name collection rest
    | some id =>
      if collection.positions.contains id then .error (.repeatedId id name)
      else place name (collection.push id record) rest

/-- Numbers the records that carry no identifier, in order. -/
def number (name : String) (collection : Collection) :
    List Document → Except Fault Collection
  | [] => .ok collection
  | record :: rest =>
    if (recordId? record).isSome then number name collection rest
    else match collection.create? record with
      | none => .error (.noIdsLeft name)
      | some (_, grown) => number name grown rest

/-- The collection that a list of records makes. Records keep their identifiers, and the sequence
goes on from the largest of them; the records without one are numbered after that. -/
def ofRecords (name : String) (records : List Document) : Except Fault Collection :=
  let largest := largestId records
  if largest = maxId then .error (.idTooLarge largest name)
  else do
    let placed ← place name { empty with nextId := largest + 1 } records
    number name placed records

end Collection

end DocumentStore
