import DocumentStore.Database.Search
import DocumentStore.Entity.Basic

/-!
# Hydration

A hydrator turns a record that was read from a collection into something else, or turns it down. It
may have faults of its own; those of this library turn a record down with a `Fault`.
`Database.fetch` and `Database.fetchOne` are `find` and `load?` with a hydrator applied to every
record; the first record that is turned down, in order, is the fault of the whole.
-/

namespace DocumentStore

/-- Turns a record of the named collection into a `β`, or turns it down. -/
abbrev Hydrator (β : Type) (ε : Type := Fault) := String → Document → Except ε β

namespace Hydrator

/-- Hands records out as they are. -/
def raw : Hydrator Document := fun _ record => .ok record

/-- Reads records as entities. -/
def entity {α : Type} [Entity α] : Hydrator α := fun _ record => Entity.read (Value.document record)

/-- Labels a record by its collection and its field `identifier`, which has to be a string. -/
def label : Hydrator String := fun name record =>
  match record.get? "identifier" with
  | some (.string identifier) => .ok (name ++ ":" ++ identifier)
  | _ => .error (.missingString "identifier")

end Hydrator

namespace Database

variable {β ε : Type}

/-- The records that a query selects, hydrated in order. -/
def fetch (db : Database) (hydrate : Hydrator β ε) (name : String) (query : Query) :
    Except ε (List β) :=
  (db.find name query).mapM (hydrate name)

/-- The record that a loosely written identifier names, hydrated. -/
def fetchOne (db : Database) (hydrate : Hydrator β ε) (name : String) (id : Value) :
    Except ε (Option β) :=
  (db.load? name id).mapM (hydrate name)

end Database

end DocumentStore
