import DocumentStore.Json.Basic
import DocumentStore.Number

/-!
# Data formats

Entities are written to and read from two formats, document values and JSON. `Format` is what the
two have in common: how to write the few sorts of data that entities consist of, and how to
recognise them again. Reading is strict. An integer is never a double, a truth value or a text, and
a text is never a symbol. Two more forms are read than are ever written: bytes that are a text in
UTF-8, and a list of the fields of an object in their order.
-/

namespace DocumentStore

/-- A format in which entities are written. -/
class Format (φ : Type) where
  /-- Writes that there is no value. -/
  null : φ
  /-- Writes an integer. -/
  int : Int64 → φ
  /-- Writes a text. -/
  string : String → φ
  /-- Writes a list. -/
  array : List φ → φ
  /-- Writes named data, in order where the format keeps one. -/
  object : List (String × φ) → φ
  /-- Recognises that there is no value. -/
  isNull : φ → Bool
  /-- Recognises an integer of sixty-four bits. -/
  asInt? : φ → Option Int64
  /-- Recognises a text. -/
  asString? : φ → Option String
  /-- Recognises a list. -/
  asArray? : φ → Option (List φ)
  /-- Recognises named data. -/
  asObject? : φ → Option (Fields φ)
  /-- Whether a list that stands for an object may hold more items than the object has fields. -/
  ignoresSurplus : Bool

/-- The text of a string, or of bytes that are one in UTF-8. -/
def Value.asText? : Value → Option String
  | .string text => some text
  | value => value.asBytes?.bind fun bytes => String.fromUTF8? bytes.toByteArray

instance : Format Value where
  null := .null
  int := .int64
  string := .string
  array := .array
  object := .document
  isNull
    | .null => true
    | _ => false
  asInt? := Value.asInt?
  asString? := Value.asText?
  asArray?
    | .array items => some items
    | _ => none
  asObject? := Value.asDocument?
  ignoresSurplus := true

instance : Format Json where
  null := .null
  int n := .integer n.toInt
  string := .string
  array := .array
  object := Json.ofMembers
  isNull
    | .null => true
    | _ => false
  asInt?
    | .integer n => if Number.fits n then some (Int64.ofInt n) else none
    | _ => none
  asString?
    | .string text => some text
    | _ => none
  asArray?
    | .array items => some items
    | _ => none
  asObject?
    | .object members => some members
    | _ => none
  ignoresSurplus := false

namespace Format

variable {φ α : Type} [Format φ]

/-- Writes a value that may be absent. -/
def option (write : α → φ) : Option α → φ
  | some value => write value
  | none => null

/-- Writes a list of values. -/
def list (write : α → φ) (values : List α) : φ := array (values.map write)

/-- The fields of an object that is being read. Named data gives them as they are. A list gives
them in their order: it has to reach all of `names`, and it may end before any of `trailing`. -/
def fields? (names trailing : List String) (data : φ) : Option (Fields φ) :=
  match asObject? data with
  | some fields => some fields
  | none => do
    let items ← asArray? data
    let all := names ++ trailing
    if names.length ≤ items.length ∧ (ignoresSurplus φ ∨ items.length ≤ all.length) then
      some (all.zip items)
    else none

/-- Reads a value that has to be there. -/
def required (read? : φ → Option α) (fields : Fields φ) (name : String) : Option α :=
  (fields.get? name).bind read?

/-- Reads a value that may be missing or null. -/
def optional (read? : φ → Option α) (fields : Fields φ) (name : String) : Option (Option α) :=
  match fields.get? name with
  | none => some none
  | some value => if isNull value then some none else (read? value).map some

/-- Reads a value that may be missing, but not null. -/
def withDefault (default : α) (read? : φ → Option α) (fields : Fields φ) (name : String) :
    Option α :=
  match fields.get? name with
  | none => some default
  | some value => read? value

/-- Reads a list of values. -/
def asList? (read? : φ → Option α) (value : φ) : Option (List α) :=
  (asArray? value).bind fun items => items.mapM read?

end Format

end DocumentStore
