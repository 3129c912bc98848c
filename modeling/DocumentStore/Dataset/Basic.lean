import DocumentStore.Database.Basic
import DocumentStore.Json.Record

/-!
# Datasets

A dataset holds the records that a database starts out with, by collection. Records supplied for
one collection are appended in the order in which they are supplied, and a collection may be named
without any records.

In JSON a dataset is an object that maps the names of collections to arrays of records. Its
collections are read in ascending order of their names, and the first fault in that order counts.
-/

namespace DocumentStore

/-- Records by collection. -/
structure Dataset where
  collections : Std.ExtTreeMap String (List Document)

namespace Dataset

/-- The dataset without collections. -/
def empty : Dataset := ⟨∅⟩

/-- The records of a collection, none where it is unknown. -/
def records (data : Dataset) (name : String) : List Document := data.collections[name]?.getD []

/-- The names of all collections, in ascending order. -/
def names (data : Dataset) : List String := data.collections.keys

/-- Whether no collection is named. -/
def isEmpty (data : Dataset) : Bool := data.collections.isEmpty

/-- Appends records to a collection, which is named even if there are none of them. -/
def add (data : Dataset) (name : String) (records : List Document) : Dataset :=
  ⟨data.collections.insert name (data.records name ++ records)⟩

/-- Records are appended to their own collection and to no other. -/
theorem records_add (data : Dataset) (name : String) (records : List Document) (other : String) :
    (data.add name records).records other =
      if name = other then data.records name ++ records else data.records other := by
  unfold add
  by_cases h : name = other
  · simp [Dataset.records, h]
  · simp [Dataset.records, Std.ExtTreeMap.getElem?_insert, h]

/-- An addition names its collection, even without records, and keeps all other names. -/
theorem mem_names_add (data : Dataset) (name : String) (records : List Document)
    (other : String) : other ∈ (data.add name records).names ↔ name = other ∨ other ∈ data.names := by
  simp [names, add, Std.ExtTreeMap.mem_keys]

/-- Appends the records of every collection of another dataset. -/
def merge (data other : Dataset) : Dataset :=
  other.collections.toList.foldl (fun acc entry => acc.add entry.1 entry.2) data

/-! ## Reading -/

/-- The records of the collection with a given name. -/
def readRecords (name : String) : Json → Except Fault (List Document)
  | .array items => items.mapM fun item => item.toRecord.mapError (.elementNotRecord name)
  | _ => .error (.collectionNotArray name)

/-- Adds the collections that the members of an object describe, in order. -/
def readMembers (data : Dataset) : List (String × Json) → Except Fault Dataset
  | [] => .ok data
  | (name, json) :: rest => do readMembers (data.add name (← readRecords name json)) rest

/-- The dataset that a JSON value describes. -/
def ofJson : Json → Except Fault Dataset
  | .object members => readMembers empty members
  | _ => .error .datasetNotObject

/-- The dataset that a JSON text describes. -/
def ofText (text : String) : Except Fault Dataset :=
  match Json.ofText? text with
  | some json => ofJson json
  | none => .error .malformedDataset

/-! ## Loading -/

/-- Adds collections to a database, each one made from its list of records. -/
def loadInto (db : Database) : List (String × List Document) → Except Fault Database
  | [] => .ok db
  | (name, records) :: rest => do
    loadInto (db.put name (← Collection.ofRecords name records)) rest

/-- The database that starts out with the records of the dataset; the first collection, in
ascending order of names, whose records are refused gives the fault. -/
def load (data : Dataset) : Except Fault Database :=
  loadInto Database.empty data.collections.toList

end Dataset

end DocumentStore
