import DocumentStore.Filter
import DocumentStore.Proofs.Fields

/-!
# What the conditions of a filter ask

A filter holds one condition for each field. When it is gathered from pairs, the condition of a field is
that of the last pair which mentions it.

* `Filter.Meets` is the meaning of a list of pairs, said of the pairs and not of the filter;
* `admits_ofPairs`: the filter that is gathered from pairs admits the records that meet them;
* `meets_of_perm`: where no field is mentioned twice, the order of the pairs does not matter;
* `admits_conjunction`: filters that constrain different fields admit together what both admit.
-/

namespace DocumentStore

/-- What a condition looks at in a value: the items of an array, or the value itself. -/
def Value.parts : Value → List Value
  | .array items => items
  | value => [value]

namespace Filter

variable {field : String} {expected : Value} {record : Document} {pairs reordered : List (String × Value)}

/-! ## One condition -/

theorem holds_eq_any (expected value : Value) :
    holds expected value = value.parts.any fun part => part.agrees expected := by
  cases value with
  | array items => rfl
  | _ => exact (Bool.or_false _).symm

theorem condition_eq_any (field : String) (expected : Value) (record : Document) :
    condition field expected record =
      (record.get? field).any fun value => value.parts.any fun part => part.agrees expected := by
  unfold condition
  cases record.get? field with
  | none => rfl
  | some value => exact holds_eq_any expected value

/-- A condition asks for the field, and that its value, or one of the items there, loosely equals what
is expected. -/
theorem condition_iff : condition field expected record = true ↔
    ∃ value ∈ record.get? field, ∃ part ∈ value.parts, part.agrees expected = true := by
  rw [condition_eq_any]
  cases record.get? field <;> simp

/-! ## All conditions -/

/-- A record meets some pairs of a field and an expectation: it has each field that they mention, and
the value there, or one of its items, loosely equals what the last pair for this field expects. -/
def Meets (pairs : List (String × Value)) (record : Document) : Prop :=
  ∀ pair ∈ Fields.lastPairs pairs, ∃ value ∈ record.get? pair.1,
    ∃ part ∈ value.parts, part.agrees pair.2 = true

theorem meets_iff :
    Meets pairs record ↔ ∀ pair ∈ Fields.lastPairs pairs, condition pair.1 pair.2 record = true := by
  simp only [Meets, condition_iff]

instance (pairs : List (String × Value)) (record : Document) : Decidable (Meets pairs record) :=
  decidable_of_iff _ meets_iff.symm

theorem admits_iff {filter : Filter} : filter.admits record = true ↔
    ∀ entry ∈ filter.conditions, condition entry.1 entry.2 record = true :=
  List.all_eq_true

/-- Gathering pairs keeps their meaning. -/
theorem admits_ofPairs (pairs : List (String × Value)) (record : Document) :
    (ofPairs pairs).admits record = decide (Meets pairs record) := by
  rw [Bool.eq_iff_iff, decide_eq_true_iff, admits_iff, meets_iff]
  constructor
  · intro h pair hpair
    exact h pair (Fields.mem_ofPairs_iff.2 hpair)
  · intro h pair hpair
    exact h pair (Fields.mem_ofPairs_iff.1 hpair)

/-- Where no field is mentioned twice, the pairs may come in any order. -/
theorem meets_of_perm (hnodup : (Fields.names pairs).Nodup) (hperm : pairs.Perm reordered) :
    Meets pairs record ↔ Meets reordered record := by
  have hnodup' : (Fields.names reordered).Nodup := (hperm.map Prod.fst).nodup hnodup
  simp only [Meets, Fields.lastPairs_of_nodup hnodup, Fields.lastPairs_of_nodup hnodup',
    hperm.mem_iff]

/-! ## Two filters -/

/-- The conditions of both filters: those of the second are added to the first, one by one. -/
def conjunction (filter other : Filter) : Filter :=
  other.conditions.foldl (fun both entry => both.and entry.1 entry.2) filter

theorem conditions_conjunction (filter other : Filter) :
    (filter.conjunction other).conditions = filter.conditions.merge other.conditions := by
  obtain ⟨entries⟩ := other
  unfold conjunction Fields.merge
  induction entries generalizing filter with
  | nil => rfl
  | cons entry rest ih => exact ih (filter.and entry.1 entry.2)

/-- Filters that constrain different fields do not get into each other's way. -/
theorem admits_conjunction {filter other : Filter}
    (h : (filter.conditions.names ++ other.conditions.names).Nodup) (record : Document) :
    (filter.conjunction other).admits record = (filter.admits record && other.admits record) := by
  have hnames : (Fields.names (filter.conditions ++ other.conditions)).Nodup := by
    rwa [Fields.names_append]
  unfold admits
  rw [conditions_conjunction, Fields.merge_of_nodup hnames, List.all_append]

end Filter

end DocumentStore
