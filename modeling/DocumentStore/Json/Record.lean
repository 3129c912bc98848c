import DocumentStore.Json.Extended
import DocumentStore.Json.Reader

/-!
# Records from JSON

A record is written as a JSON object. An object that denotes a value of another kind, by the standard
extension, is no record.
-/

namespace DocumentStore.Json

/-- The record that a JSON value stands for. -/
def toRecord (json : Json) : Except Fault Document := Extension.standard.toRecord json

/-- The record that a JSON text stands for. -/
def readRecord (text : String) : Except Fault Document :=
  match ofText? text with
  | some json => json.toRecord
  | none => .error .malformedJson

end DocumentStore.Json
