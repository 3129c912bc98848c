import DocumentStore.Json.Extension
import DocumentStore.Text.Hex
import DocumentStore.Text.Moment

/-!
# The standard extension

An object of exactly the right names whose members are of the right form denotes a value: there is
one form for each kind of values that JSON has no words for, and two for some.

* `single?` and `denoted?` are the forms;
* `denoted?_spec` is what they have in common, and `Extension.standard` puts them together.
-/

namespace DocumentStore.Json

namespace Extended

/-- The string under a name. -/
def string? (fields : Document) (name : String) : Option String :=
  (fields.get? name).bind Value.asString?

/-- The integer that a text writes, where it lies between two bounds. -/
def integer? (text : String) (low high : Int) : Option Int :=
  (Numeral.readInt? text.toList).filter fun n => low ≤ n && n ≤ high

/-- An identifier of twenty-four digits. -/
def objectId? (text : String) : Option Atom :=
  if text.length = 24 then (Hex.readNat? text.toList).map fun n => .objectId (BitVec.ofNat 96 n)
  else none

/-- A double, with words for the values that have no digits. -/
def double? (text : String) : Option Binary64 :=
  if text = "Infinity" then some (Binary64.ofPlace false Binary64.infinityPlace)
  else if text = "-Infinity" then some (Binary64.ofPlace true Binary64.infinityPlace)
  else Binary64.read? text.toList

/-- Bytes in base 64 with a subtype of two hexadecimal digits. -/
def encodedBinary? (base64 : String) (fields : Document) : Option Atom := do
  let bytes ← Base64.readBytes? base64.toList
  match ← Hex.readBytes? (← string? fields "subType").toList with
  | [subtype] => some (.binary subtype bytes)
  | _ => none

/-- Bytes that are a value already, with a subtype in an integer of thirty-two bits. -/
def plainBinary? (fields : Document) : Option Atom := do
  let bytes ← (fields.get? "bytes").bind Value.asBytes?
  match ← fields.get? "subType" with
  | .int32 n => if 0 ≤ n ∧ n < 256 then some (.binary n.toUInt32.toUInt8 bytes) else none
  | _ => none

/-- Bytes with a subtype. A string in base 64 decides which of the two forms it is. -/
def binary? (fields : Document) : Option Atom :=
  match string? fields "base64" with
  | some base64 => encodedBinary? base64 fields
  | none => plainBinary? fields

/-- A decimal, by its sixteen bytes. -/
def decimal? (bytes : List UInt8) : Option Atom :=
  if bytes.length = 16 then
    some (.decimal128 (BitVec.ofNat 128 (bytes.foldl (fun n byte => 256 * n + byte.toNat) 0)))
  else none

/-- The two parts of a timestamp, which have to be integers of one width. Parts of thirty-two bits
are taken as they are, and wider ones have to fit. -/
def timestamp? (fields : Document) : Option Atom :=
  match fields.get? "t", fields.get? "i" with
  | some (.int32 time), some (.int32 increment) =>
    some (.timestamp time.toUInt32 increment.toUInt32)
  | some (.int64 time), some (.int64 increment) =>
    if 0 ≤ time ∧ time < 0x100000000 ∧ 0 ≤ increment ∧ increment < 0x100000000 then
      some (.timestamp time.toUInt64.toUInt32 increment.toUInt64.toUInt32)
    else none
  | _, _ => none

/-- A regular expression, whose options are put into ascending order. Neither of its texts may
contain the character zero. -/
def regex? (fields : Document) : Option Atom := do
  let pattern ← string? fields "pattern"
  let options ← string? fields "options"
  if '\x00' ∈ pattern.toList ∨ '\x00' ∈ options.toList then none
  else
    let sorted := options.toList.mergeSort fun a b => a.toNat ≤ b.toNat
    some (.regex pattern (String.ofList sorted))

/-- A collection and an identifier that is a value already. -/
def pointer? (fields : Document) : Option Atom := do
  let collection ← string? fields "$ref"
  match ← fields.get? "$id" with
  | .atom (.objectId id) => some (.dbPointer collection id)
  | _ => none

/-- A moment in the form of a text. -/
def dateTime? (text : String) : Option Atom :=
  (Moment.read? text.toList).map fun millis => .dateTime (Int64.ofInt millis)

/-- The value that a single named member denotes. -/
def single? (name : String) (member : Value) : Option Value :=
  match name, member with
  | "$oid", .string text => (objectId? text).map .atom
  | "$symbol", .string text => some (.atom (.symbol text))
  | "$numberInt", .string text =>
    (integer? text Int32.minValue.toInt Int32.maxValue.toInt).map fun n => .int32 (Int32.ofInt n)
  | "$numberLong", .string text =>
    (integer? text Int64.minValue.toInt Int64.maxValue.toInt).map fun n => .int64 (Int64.ofInt n)
  | "$numberDouble", .string text => (double? text).map .double
  | "$numberDecimalBytes", value => (value.asBytes?.bind decimal?).map .atom
  | "$binary", .document fields => (binary? fields).map .atom
  | "$code", .string text => some (.atom (.code text))
  | "$timestamp", .document fields => (timestamp? fields).map .atom
  | "$regularExpression", .document fields => (regex? fields).map .atom
  | "$dbPointer", .document fields => (pointer? fields).map .atom
  | "$date", .int64 millis => some (.atom (.dateTime millis))
  | "$date", .string text => (dateTime? text).map .atom
  | "$minKey", value => if value.asInt? = some 1 then some (.atom .minKey) else none
  | "$maxKey", value => if value.asInt? = some 1 then some (.atom .maxKey) else none
  | "$undefined", .boolean true => some .undefined
  | _, _ => none

/-- The value that an object of converted members denotes, if it denotes one. -/
def denoted? : Document → Option Value
  | [(name, member)] => single? name member
  | [("$code", .string text), ("$scope", .document scope)] => some (.scopedCode text scope)
  | _ => none

/-- A single member denotes a value under names with a dollar sign only, and never a document. -/
theorem single?_spec {name : String} {member value : Value}
    (h : single? name member = some value) :
    name.toList.head? = some '$' ∧ ∀ fields, value ≠ .document fields := by
  unfold single? at h
  split at h
  case h_17 => cases h
  all_goals
    refine ⟨by decide, ?_⟩
    rintro fields rfl
    simp [Option.bind_eq_some_iff] at h

/-- What denotes a value is small and has names with a dollar sign only, and the value is no
document. -/
theorem denoted?_spec {fields : Document} {value : Value} (h : denoted? fields = some value) :
    fields.length ≤ 2 ∧ (∀ name ∈ Fields.names fields, name.toList.head? = some '$') ∧
      ∀ inner, value ≠ .document inner := by
  unfold denoted? at h
  split at h
  · obtain ⟨hname, hvalue⟩ := single?_spec h
    exact ⟨by simp, by simpa [Fields.names] using hname, hvalue⟩
  · obtain rfl := Option.some.inj h
    exact ⟨by simp, by simp [Fields.names], by simp⟩
  · cases h

end Extended

/-- The extension whose forms are those of `Extended.denoted?`. -/
def Extension.standard : Extension where
  denoted? := Extended.denoted?
  length_le h := (Extended.denoted?_spec h).1
  head?_eq h := (Extended.denoted?_spec h).2.1
  ne_document h := (Extended.denoted?_spec h).2.2

end DocumentStore.Json
