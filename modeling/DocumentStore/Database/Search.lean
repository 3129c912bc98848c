import DocumentStore.Database.Basic
import DocumentStore.Query

/-!
# Searching a database

`find` answers with the records that a filter admits, in the order of the collection, with the
joins of the query resolved on each of them. `count` counts them, and `load` looks a record up by
its identifier through the index.

Joins are resolved one after the other on a record that grows: each attribute is set to the array
of the rows that belong to the record, on which the nested joins are resolved in turn.
-/

namespace DocumentStore

namespace Database

/-- The records of a collection that a filter admits. -/
def select (db : Database) (name : String) (filter : Filter) : List Document :=
  (db.records name).filter filter.admits

mutual

/-- The rows that a join attaches to a source record. -/
def rows (db : Database) : Join → Document → List Document
  | ⟨collection, pairs, joins⟩, source =>
    (db.select collection (Join.filterFor ⟨collection, pairs, joins⟩ source)).map fun row =>
      resolve db joins row

/-- The record with all joins resolved on it, in order. -/
def resolve (db : Database) : List (String × Join) → Document → Document
  | [], record => record
  | (attr, join) :: rest, record =>
    resolve db rest (record.insert attr (.array ((rows db join record).map .document)))

end

/-- The records that a query selects, with its joins resolved. -/
def find (db : Database) (name : String) (query : Query) : List Document :=
  (db.select name query.filter).map (db.resolve query.joins)

/-- The number of records that a filter admits. -/
def count (db : Database) (name : String) (filter : Filter) : Nat :=
  (db.records name).countP filter.admits

/-- The record that a loosely written identifier names. -/
def load? (db : Database) (name : String) (id : Value) : Option Document :=
  (coerceId id).bind (db.collection name).get?

end Database

end DocumentStore
