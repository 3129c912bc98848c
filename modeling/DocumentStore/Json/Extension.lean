import DocumentStore.Fault
import DocumentStore.Json.Basic
import DocumentStore.Number

/-!
# From JSON to values

Integers become integers of sixty-four bits, and everything else keeps its sort. JSON has no words
for the other kinds of values, so an extension lets small objects stand for them: an object that
denotes a value becomes this value, and any other object becomes a document. Objects are converted
from the inside out, so the members are values already when an object is looked at.

The conversion is defined over any extension; an `Extension` carries what they have in common.
-/

namespace DocumentStore.Json

/-- Which objects stand for values of other kinds than documents. -/
structure Extension where
  /-- The value that an object of converted members denotes, if it denotes one. -/
  denoted? : Document → Option Value
  /-- An object that denotes a value has at most two members. -/
  length_le {fields : Document} {value : Value} (h : denoted? fields = some value) :
    fields.length ≤ 2
  /-- The names of all its members start with a dollar sign. -/
  head?_eq {fields : Document} {value : Value} (h : denoted? fields = some value) :
    ∀ name ∈ Fields.names fields, name.toList.head? = some '$'
  /-- What it denotes is no document. -/
  ne_document {fields : Document} {value : Value} (h : denoted? fields = some value) :
    ∀ inner, value ≠ .document inner

namespace Extension

/-- The value of an object with converted members. -/
def ofMembers (ext : Extension) (members : Document) : Value :=
  (ext.denoted? members).getD (.document members)

mutual

/-- The value that a JSON value stands for. An integer beyond sixty-four bits stands for none. -/
def toValue (ext : Extension) : Json → Except Fault Value
  | .null => .ok .null
  | .boolean b => .ok (.boolean b)
  | .integer n =>
    if Number.fits n then .ok (.int64 (Int64.ofInt n)) else .error (.integerTooLarge n)
  | .double x => .ok (.double x)
  | .string text => .ok (.string text)
  | .array items => do return .array (← itemValues ext items)
  | .object members => do return ext.ofMembers (← memberValues ext members)

/-- The values that the items of an array stand for. -/
def itemValues (ext : Extension) : List Json → Except Fault (List Value)
  | [] => .ok []
  | item :: rest => do return (← toValue ext item) :: (← itemValues ext rest)

/-- The values that the members of an object stand for, under their names. -/
def memberValues (ext : Extension) : List (String × Json) → Except Fault (List (String × Value))
  | [] => .ok []
  | (name, member) :: rest => do return (name, ← toValue ext member) :: (← memberValues ext rest)

end

/-- The record that a JSON value stands for; it has to be a document. -/
def toRecord (ext : Extension) (json : Json) : Except Fault Document :=
  (ext.toValue json).bind fun value =>
    match value with
    | .document fields => .ok fields
    | other => .error (.notRecord other.kind)

end Extension

end DocumentStore.Json
