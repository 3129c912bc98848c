import DocumentStore.Binary64.Basic
import DocumentStore.Fields

/-!
# Values and documents

A value is what a field of a record holds. Numbers come in three widths, arrays and documents nest
to any depth, and the kinds that are only ever stored and compared as a whole are gathered in
`Atom`. A document is a list of named values; `Value.WellFormed` says that a value names no field
twice, at any depth, which every document gathered by `Fields.ofPairs` keeps.
-/

namespace DocumentStore

/-- Values without an inner structure: two atoms agree exactly when they are the same. -/
inductive Atom where
  /-- The value below all others. -/
  | minKey
  /-- The value above all others. -/
  | maxKey
  /-- A moment, in milliseconds since the epoch. -/
  | dateTime (millis : Int64)
  /-- A twelve-byte identifier. -/
  | objectId (id : BitVec 96)
  /-- Bytes with a tag that says what they are. -/
  | binary (subtype : UInt8) (bytes : List UInt8)
  /-- A time in seconds with a counter inside the second. -/
  | timestamp (time increment : UInt32)
  /-- A regular expression. -/
  | regex (pattern options : String)
  /-- A symbol, which is not a string. -/
  | symbol (name : String)
  /-- The text of a program. -/
  | code (text : String)
  /-- A decimal floating-point number, by its bytes. -/
  | decimal128 (bytes : BitVec 128)
  /-- A record of a collection, by its twelve-byte identifier. -/
  | dbPointer (collection : String) (id : BitVec 96)
  deriving DecidableEq, Repr

/-- A value of a document field. -/
inductive Value where
  | null
  | undefined
  | boolean (b : Bool)
  | int32 (n : Int32)
  | int64 (n : Int64)
  | double (x : Binary64)
  | string (text : String)
  | array (items : List Value)
  | document (fields : List (String × Value))
  /-- The text of a program with the variables it closes over. -/
  | scopedCode (text : String) (scope : List (String × Value))
  | atom (a : Atom)
  deriving Inhabited

/-- A document: named values in order. -/
abbrev Document := Fields Value

/-- The name of what a value is. -/
inductive Kind where
  | double | string | array | document | binary | undefined | objectId | boolean | dateTime | null
  | regex | code | scopedCode | symbol | int32 | int64 | timestamp | decimal128 | minKey | maxKey
  | dbPointer
  deriving DecidableEq, Repr

namespace Kind

/-- The word for a kind in messages. -/
def label : Kind → String
  | double => "Double"
  | string => "String"
  | array => "Array"
  | document => "EmbeddedDocument"
  | binary => "Binary"
  | undefined => "Undefined"
  | objectId => "ObjectId"
  | boolean => "Boolean"
  | dateTime => "DateTime"
  | null => "Null"
  | regex => "RegularExpression"
  | code => "JavaScriptCode"
  | scopedCode => "JavaScriptCodeWithScope"
  | symbol => "Symbol"
  | int32 => "Int32"
  | int64 => "Int64"
  | timestamp => "Timestamp"
  | decimal128 => "Decimal128"
  | minKey => "MinKey"
  | maxKey => "MaxKey"
  | dbPointer => "DbPointer"

end Kind

/-- The kind of an atom. -/
def Atom.kind : Atom → Kind
  | minKey => .minKey
  | maxKey => .maxKey
  | dateTime _ => .dateTime
  | objectId _ => .objectId
  | binary _ _ => .binary
  | timestamp _ _ => .timestamp
  | regex _ _ => .regex
  | symbol _ => .symbol
  | code _ => .code
  | decimal128 _ => .decimal128
  | dbPointer _ _ => .dbPointer

namespace Value

/-- The kind of a value. -/
def kind : Value → Kind
  | null => .null
  | undefined => .undefined
  | boolean _ => .boolean
  | int32 _ => .int32
  | int64 _ => .int64
  | double _ => .double
  | string _ => .string
  | array _ => .array
  | document _ => .document
  | scopedCode _ _ => .scopedCode
  | atom a => a.kind

/-- The text of a string; a symbol is not one. -/
def asString? : Value → Option String
  | string text => some text
  | _ => none

/-- The bytes of a binary of no special sort, which has the subtype zero. -/
def asBytes? : Value → Option (List UInt8)
  | atom (.binary subtype bytes) => if subtype = 0 then some bytes else none
  | _ => none

/-- The fields of a document. -/
def asDocument? : Value → Option Document
  | document fields => some fields
  | _ => none

/-- The value of an integer of either width. -/
def asInt? : Value → Option Int64
  | int32 n => some n.toInt64
  | int64 n => some n
  | _ => none

/-! ## Documents that name no field twice -/

mutual

/-- No document inside the value, at any depth, names a field twice. -/
def WellFormed : Value → Prop
  | array items => AllWellFormed items
  | document fields => (Fields.names fields).Nodup ∧ FieldsWellFormed fields
  | scopedCode _ scope => (Fields.names scope).Nodup ∧ FieldsWellFormed scope
  | _ => True

/-- All items of a list are well formed. -/
def AllWellFormed : List Value → Prop
  | [] => True
  | item :: rest => WellFormed item ∧ AllWellFormed rest

/-- All values of named entries are well formed. -/
def FieldsWellFormed : List (String × Value) → Prop
  | [] => True
  | (_, value) :: rest => WellFormed value ∧ FieldsWellFormed rest

end

/-- A list is well formed when each of its items is. -/
theorem allWellFormed_iff {items : List Value} :
    AllWellFormed items ↔ ∀ item ∈ items, item.WellFormed := by
  induction items with
  | nil => simp [AllWellFormed]
  | cons item rest ih => simp [AllWellFormed, ih]

/-- Named entries are well formed when each of their values is. -/
theorem fieldsWellFormed_iff {fields : Document} :
    FieldsWellFormed fields ↔ ∀ entry ∈ fields, entry.2.WellFormed := by
  induction fields with
  | nil => simp [FieldsWellFormed]
  | cons entry rest ih => simp [FieldsWellFormed, ih]

end Value

end DocumentStore
