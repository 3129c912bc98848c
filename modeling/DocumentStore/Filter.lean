import DocumentStore.Value.Loose

/-!
# Filters

A filter is a conjunction of conditions, each of which expects a value in a field. A condition on
a field that is already constrained replaces the earlier one, so a filter holds one condition for
each field, in the order in which the fields were first mentioned.

`Filter.admits` is the meaning of a filter: every field it mentions is present and holds, loosely,
the expected value; a field that holds an array needs it among the items.
-/

namespace DocumentStore

/-- The conditions that select records. -/
structure Filter where
  /-- The expected value of each constrained field. -/
  conditions : Fields Value

namespace Filter

/-- The filter without conditions. -/
def empty : Filter := ⟨[]⟩

/-- Adds a condition, or replaces the one that the field has. -/
def and (filter : Filter) (field : String) (expected : Value) : Filter :=
  ⟨filter.conditions.insert field expected⟩

/-- The filter with a single condition. -/
def matching (field : String) (expected : Value) : Filter := empty.and field expected

/-- Adds the conditions of a list one after the other. -/
def ofPairs (pairs : List (String × Value)) : Filter := ⟨Fields.ofPairs pairs⟩

/-- One condition for each field of a document. -/
def ofDocument (document : Document) : Filter := ofPairs document

/-- One condition for each value, on a field named by its position. -/
def ofList (values : List Value) : Filter :=
  ofPairs (values.zipIdx.map fun (value, position) => (Nat.repr position, value))

/-- The filter that a value describes: a document by its fields, an array by its positions, null
by nothing, and any other value as an array of one. -/
def ofValue : Value → Filter
  | .document fields => ofDocument fields
  | .array items => ofList items
  | .null => empty
  | value => ofList [value]

/-- The number of conditions. -/
def size (filter : Filter) : Nat := filter.conditions.length

/-- Whether there are no conditions. -/
def isEmpty (filter : Filter) : Bool := filter.conditions.isEmpty

/-- The same conditions, in the same order, with strictly equal values. -/
def equal (left right : Filter) : Bool :=
  left.conditions.names == right.conditions.names &&
    Value.equalItems (left.conditions.map Prod.snd) (right.conditions.map Prod.snd)

/-! ## Meaning -/

/-- Whether a stored value meets an expectation: an array by one of its items. -/
def holds (expected : Value) : Value → Bool
  | .array items => items.any fun item => item.agrees expected
  | value => value.agrees expected

/-- Whether a record meets a condition; a missing field never does. -/
def condition (field : String) (expected : Value) (record : Document) : Bool :=
  match record.get? field with
  | some value => holds expected value
  | none => false

/-- Whether a record meets every condition. -/
def admits (filter : Filter) (record : Document) : Bool :=
  filter.conditions.all fun (field, expected) => condition field expected record

end Filter

end DocumentStore
