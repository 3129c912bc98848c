import DocumentStore.Entity.Format
import DocumentStore.Fault
import DocumentStore.Json.Reader

/-!
# Entities

An entity is a typed object that is stored as a record. It belongs to a collection, and it can be
written in every data format and read from it again. Whatever cannot be read is one fault.
-/

namespace DocumentStore

/-- A type of objects that are stored as records. -/
class Entity (α : Type) where
  /-- The collection that the objects are stored in. -/
  collection : String
  /-- Writes an object. -/
  write {φ : Type} [Format φ] : α → φ
  /-- Reads an object. -/
  read? {φ : Type} [Format φ] : φ → Option α

namespace Entity

variable {α : Type} [Entity α]

/-- Reads an object, in either format. -/
def read {φ : Type} [Format φ] (data : φ) : Except Fault α :=
  match read? data with
  | some entity => .ok entity
  | none => .error (.undecodable (collection α))

/-- Reads an object from a JSON text. -/
def readText (text : String) : Except Fault α :=
  match Json.ofText? text with
  | some json => read json
  | none => .error .malformedJson

/-- The record of an object, which has to be written as a document. -/
def toRecord (entity : α) : Except Fault Document :=
  match (write entity : Value) with
  | .document fields => .ok fields
  | value => .error (.entityNotRecord (collection α) value.kind)

end Entity

end DocumentStore
