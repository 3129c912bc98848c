import DocumentStore.Filter
import DocumentStore.Proofs.Fields.Keeping
import Mathlib

/-!
# Filters and the calls that make them

A filter comes from one of the constructors, and any number of conditions may be added to it. Whatever
the calls are, its conditions are what is kept of the expectations that they give.

* `Filter.Recipe` are the ways to make a filter, and `Recipe.given` lists the expectations in the order
  in which they are given;
* `conditions_ofList` and `conditions_ofDocument`: the values of a list, and the fields of a document,
  become one condition each;
* `Recipe.keeps` says what is kept in general.
-/

namespace DocumentStore.Filter

/-! ## Values by their positions -/

/-- The values of a list, each under its position. -/
def byPosition (values : List Value) : List (String × Value) :=
  values.mapIdx fun position value => (Nat.repr position, value)

theorem getElem?_byPosition (values : List Value) (position : Nat) :
    (byPosition values)[position]? = values[position]?.map (Nat.repr position, ·) :=
  List.getElem?_mapIdx

theorem length_byPosition (values : List Value) : (byPosition values).length = values.length :=
  List.length_mapIdx

theorem names_byPosition (values : List Value) :
    Fields.names (byPosition values) = (List.range values.length).map Nat.repr := by
  refine List.ext_getElem? fun position => ?_
  rw [Fields.names, List.getElem?_map, getElem?_byPosition, List.getElem?_map, Option.map_map]
  by_cases h : position < values.length
  · simp [h]
  · simp [h]

/-- No two positions are written in the same way. -/
theorem nodup_names_byPosition (values : List Value) : (Fields.names (byPosition values)).Nodup := by
  rw [names_byPosition]
  exact List.nodup_range.map fun _ _ => Nat.repr_inj.1

theorem ofList_eq (values : List Value) : ofList values = ofPairs (byPosition values) := by
  rw [ofList, byPosition, List.mapIdx_eq_zipIdx_map]

/-- A list makes one condition for each value, in order. -/
theorem conditions_ofList (values : List Value) : (ofList values).conditions = byPosition values := by
  rw [ofList_eq]
  exact Fields.ofPairs_of_nodup (nodup_names_byPosition values)

/-- A document makes one condition for each field, in order. -/
theorem conditions_ofDocument {document : Document} (h : document.names.Nodup) :
    (ofDocument document).conditions = document :=
  Fields.ofPairs_of_nodup h

/-! ## Recipes -/

/-- A way to make a filter. -/
inductive Recipe where
  | empty
  | matching (field : String) (expected : Value)
  | ofPairs (pairs : List (String × Value))
  | ofDocument (document : Document)
  | ofList (values : List Value)
  | ofValue (value : Value)
  /-- One more condition for the filter of another recipe. -/
  | and (recipe : Recipe) (field : String) (expected : Value)

namespace Recipe

/-- The filter that a recipe makes. -/
def make : Recipe → Filter
  | empty => Filter.empty
  | matching field expected => Filter.matching field expected
  | ofPairs pairs => Filter.ofPairs pairs
  | ofDocument document => Filter.ofDocument document
  | ofList values => Filter.ofList values
  | ofValue value => Filter.ofValue value
  | and recipe field expected => recipe.make.and field expected

/-- The expectations that a value gives. -/
def givenBy : Value → List (String × Value)
  | .document fields => fields
  | .array items => byPosition items
  | .null => []
  | value => [("0", value)]

/-- The expectations that a recipe gives, in order. A field may be mentioned several times. -/
def given : Recipe → List (String × Value)
  | empty => []
  | matching field expected => [(field, expected)]
  | ofPairs pairs => pairs
  | ofDocument document => document
  | ofList values => byPosition values
  | ofValue value => givenBy value
  | and recipe field expected => recipe.given ++ [(field, expected)]

theorem keeps_ofList (values : List Value) :
    Fields.Keeps (· = ·) (byPosition values) (Filter.ofList values).conditions := by
  rw [ofList_eq]
  exact Fields.keeps_ofPairs _

theorem keeps_ofValue (value : Value) :
    Fields.Keeps (· = ·) (givenBy value) (Filter.ofValue value).conditions := by
  cases value with
  | document fields => exact Fields.keeps_ofPairs fields
  | array items => exact keeps_ofList items
  | null => exact Fields.keeps_nil
  | _ => exact keeps_ofList [_]

/-- Whatever the calls are that make a filter, it constrains no field twice, the fields are in the
order in which they were first mentioned, and each has the value that was given for it last. -/
theorem keeps (recipe : Recipe) : Fields.Keeps (· = ·) recipe.given recipe.make.conditions := by
  induction recipe with
  | empty => exact Fields.keeps_nil
  | matching field expected => exact Fields.keeps_nil.insert rfl field
  | ofPairs pairs => exact Fields.keeps_ofPairs pairs
  | ofDocument document => exact Fields.keeps_ofPairs document
  | ofList values => exact keeps_ofList values
  | ofValue value => exact keeps_ofValue value
  | and recipe field expected ih => exact ih.insert rfl field

example : (Recipe.and (ofValue (.array [.null, .null])) "0" (.int32 1)).make.conditions =
    [("0", .int32 1), ("1", .null)] := rfl

end Recipe

end DocumentStore.Filter
