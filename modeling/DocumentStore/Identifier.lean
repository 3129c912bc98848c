import DocumentStore.Number

/-!
# Identifiers

A record is identified within its collection by a positive integer below `maxId`. Callers may write
an identifier in any numeric kind or as a text; `coerceId` reads all of these by one rule.
-/

namespace DocumentStore

/-- The name of the field that holds a record's identifier. -/
def idField : String := "id"

/-- The largest integer of sixty-four bits, `2 ^ 63 - 1`. No record is ever stored under it, since
the identifier that follows a stored one has to exist. -/
def maxId : Nat := 0x7FFFFFFFFFFFFFFF

/-- The stored form of an identifier. -/
def idValue (id : Nat) : Value := .int64 (Int64.ofNat id)

/-- The number behind a loosely written identifier: a numeric value, or a text that writes one. -/
def idNumber? : Value → Option Number
  | .string text => Number.parse text
  | value => Number.ofValue? value

/-- The identifier that a value names: it has to be exactly a positive integer. -/
def coerceId (value : Value) : Option Nat :=
  (((idNumber? value).bind Number.asInt?).filter fun n => 0 < n).map fun n => n.toInt.toNat

/-- The identifier that a record carries, if it carries a usable one. -/
def recordId? (record : Document) : Option Nat := (record.get? idField).bind coerceId

end DocumentStore
