import DocumentStore.Filter

/-!
# Joins

A join attaches to a source record the rows of another collection that belong to it. It pairs
fields of the target collection with fields of the source, and it may carry joins of its own, which
are resolved on every attached row. Joins are kept under the attribute that they fill.
-/

namespace DocumentStore

/-- How rows of another collection are attached to a source record. -/
structure Join where
  /-- The collection that the rows are taken from. -/
  collection : String
  /-- Pairs of a target field and the source field that it has to equal. -/
  pairs : List (String × String)
  /-- The joins that are resolved on every attached row. -/
  joins : List (String × Join)

/-- Joins by the attribute that they fill, in order. -/
abbrev Joins := Fields Join

namespace Join

/-- The join that attaches every row of a collection. -/
def ofCollection (collection : String) : Join := ⟨collection, [], []⟩

/-- Asks in addition that a target field equals a source field. -/
def pair (join : Join) (target source : String) : Join :=
  { join with pairs := join.pairs ++ [(target, source)] }

/-- Adds a join to be resolved on every attached row. -/
def nest (join : Join) (attr : String) (inner : Join) : Join :=
  { join with joins := Fields.insert join.joins attr inner }

/-- The filter that selects the rows belonging to a source record: each target field is expected
to hold the value of its source field, and null where the source lacks it. -/
def filterFor (join : Join) (source : Document) : Filter :=
  Filter.ofPairs (join.pairs.map fun (target, field) =>
    (target, (source.get? field).getD .null))

/-! ## Equality -/

mutual

/-- Whether two joins are the same. -/
def same : Join → Join → Bool
  | ⟨c, ps, js⟩, ⟨d, qs, ks⟩ => c == d && ps == qs && allSame js ks

/-- Whether two lists of joins are the same, attribute by attribute. -/
def allSame : List (String × Join) → List (String × Join) → Bool
  | [], [] => true
  | (a, j) :: js, (b, k) :: ks => a == b && same j k && allSame js ks
  | _, _ => false

end

mutual

/-- `same` decides equality of joins. -/
theorem same_iff : ∀ {j k : Join}, same j k = true ↔ j = k
  | ⟨c, ps, js⟩, ⟨d, qs, ks⟩ => by
    simp [same, @allSame_iff js ks, and_assoc]

/-- `allSame` decides equality of lists of joins. -/
theorem allSame_iff : ∀ {js ks : List (String × Join)}, allSame js ks = true ↔ js = ks
  | [], [] => by simp [allSame]
  | [], _ :: _ => by simp [allSame]
  | _ :: _, [] => by simp [allSame]
  | (a, j) :: js, (b, k) :: ks => by
    simp [allSame, @same_iff j k, @allSame_iff js ks]

end

instance : DecidableEq Join := fun _ _ => decidable_of_iff _ same_iff

end Join

end DocumentStore
