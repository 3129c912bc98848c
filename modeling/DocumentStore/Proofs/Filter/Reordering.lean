import DocumentStore.Proofs.Database.Lookup
import DocumentStore.Proofs.Filter.Conditions
import DocumentStore.Proofs.Value.Congruence

/-!
# Filters do not see the order of fields

The fields of a document may be listed in any order, at any depth, in a record and in what a filter
expects of it: the filter admits the same records.

* `eq_of_reordered`: what one permutation of fields leaves alone any number of them leaves alone;
* `admits_of_reordered`: a filter admits a record as it admits the reordered one;
* `admits_of_reordered_conditions`: so does a reordered filter;
* `equal_congruence` puts this beside what holds of strict equality.
-/

namespace DocumentStore

namespace Value

/-- What one permutation of fields leaves alone, in a document or deeper inside it, any number of them
leaves alone. -/
theorem eq_of_reordered {β : Type} {view : Document → β} {fields other : Document}
    (hview : ∀ {fields other : Document}, (document fields).WellFormed →
      Reorders (document fields) (document other) → view fields = view other)
    (hfields : (document fields).WellFormed) (h : Reordered (document fields) (document other)) :
    view fields = view other := by
  -- all values on the way are documents
  have hway {v : Value} (h : Reordered (document fields) v) :
      ∃ other, v = document other ∧ view fields = view other := by
    induction h with
    | refl => exact ⟨fields, rfl, rfl⟩
    | tail hbefore hstep ih =>
      obtain ⟨between, rfl, hsame⟩ := ih
      have hbetween := Reordered.wellFormed hbefore hfields
      cases hstep with
      | fields hperm => exact ⟨_, rfl, hsame.trans (hview hbetween (.fields hperm))⟩
      | field hinner => exact ⟨_, rfl, hsame.trans (hview hbetween (.field hinner))⟩
  obtain ⟨_, hother, hsame⟩ := hway h
  rwa [document.inj hother]

theorem parts_wellFormed {value part : Value} (h : value.WellFormed) (hpart : part ∈ value.parts) :
    part.WellFormed := by
  cases value with
  | array items =>
    rw [WellFormed, allWellFormed_iff] at h
    exact h part hpart
  | _ =>
    obtain rfl := List.mem_singleton.1 hpart
    exact h

end Value

open Value

namespace Filter

variable {v w : Value} {record other conditions : Document} {filter reordered : Filter}

/-! ## Reordered records -/

/-- A reordered value meets the same expectations. -/
theorem holds_of_reorders (h : Reorders v w) (expected : Value) :
    holds expected v = holds expected w := by
  have hagrees {v w : Value} (h : Reorders v w) : v.agrees expected = w.agrees expected :=
    Bool.eq_iff_iff.2 (h.agrees_iff expected)
  cases h with
  | item hinner => simp only [holds, List.any_append, List.any_cons, hagrees hinner]
  | fields hperm => exact hagrees (.fields hperm)
  | scope hperm => exact hagrees (.scope hperm)
  | field hinner => exact hagrees (.field hinner)
  | captured hinner => exact hagrees (.captured hinner)

theorem condition_of_reorders (h : Reorders (document record) (document other))
    (hrecord : (document record).WellFormed) (field : String) (expected : Value) :
    condition field expected record = condition field expected other := by
  unfold condition
  cases h with
  | fields hperm => rw [Fields.get?_of_perm hrecord.1 hperm]
  | @field front back name v w hinner =>
    rw [Fields.get?_append, Fields.get?_append, Fields.get?_cons, Fields.get?_cons]
    cases Fields.get? front field with
    | some value => rfl
    | none =>
      by_cases hname : name = field
      · rw [if_pos hname, if_pos hname]
        exact holds_of_reorders hinner expected
      · rw [if_neg hname, if_neg hname]

theorem admits_of_reordered (h : Reordered (document record) (document other))
    (hrecord : (document record).WellFormed) (filter : Filter) :
    filter.admits record = filter.admits other := by
  refine eq_of_reordered (fun hrecord hstep => ?_) hrecord h
  unfold admits
  simp only [condition_of_reorders hstep hrecord]

/-! ## Reordered filters -/

/-- A record meets a reordered expectation as it meets the original one. -/
theorem condition_of_reordered (h : Reordered v w) (hv : v.WellFormed)
    (hrecord : (document record).WellFormed) (field : String) :
    condition field v record = condition field w record := by
  rw [condition_eq_any, condition_eq_any]
  cases hget : record.get? field with
  | none => rfl
  | some value =>
    have hvalue := hrecord.of_get? hget
    rw [Option.any_some, Option.any_some, Bool.eq_iff_iff, List.any_eq_true, List.any_eq_true]
    refine exists_congr fun part => and_congr_right fun hpart => ?_
    rw [h.agrees_right hv (parts_wellFormed hvalue hpart)]

theorem admits_of_reordered_conditions
    (h : Reordered (document filter.conditions) (document reordered.conditions))
    (hfilter : (document filter.conditions).WellFormed) (hrecord : (document record).WellFormed) :
    filter.admits record = reordered.admits record := by
  have hadmits {conditions other : Document} (hconditions : (document conditions).WellFormed)
      (hstep : Reorders (document conditions) (document other)) :
      admits ⟨conditions⟩ record = admits ⟨other⟩ record := by
    unfold admits
    cases hstep with
    | fields hperm => exact hperm.all_eq
    | @field front back name v w hinner =>
      have hv : v.WellFormed :=
        fieldsWellFormed_iff.1 hconditions.2 (name, v) (List.mem_append_right _ List.mem_cons_self)
      simp only [List.all_append, List.all_cons,
        condition_of_reordered (.single hinner) hv hrecord]
  exact eq_of_reordered hadmits hfilter h

end Filter

/-- Strictly equal values are loosely equal to one another and to the same values. Reordering
the fields of documents, at whatever depth, in the records of a list and in a filter, its conditions
included, leaves it to the same places of the list whether the filter admits what stands there. So
a search with a reordered filter answers the same. -/
theorem equal_congruence :
    (∀ a a' b : Value, a.WellFormed → a'.WellFormed → a.equal a' = true →
      a.agrees a' = true ∧ (a.agrees b = true ↔ a'.agrees b = true)) ∧
    (∀ (filter reordered : Filter) (records others : List Document),
      (document filter.conditions).WellFormed → (∀ record ∈ records, (document record).WellFormed) →
      Reordered (document filter.conditions) (document reordered.conditions) →
      List.Forall₂ (fun record other => Reordered (document record) (document other)) records others →
      records.map filter.admits = others.map reordered.admits) ∧
    (∀ (db : Database) (name : String) (filter reordered : Filter) (joins : Joins),
      (document filter.conditions).WellFormed →
      (∀ record ∈ db.records name, (document record).WellFormed) →
      Reordered (document filter.conditions) (document reordered.conditions) →
      db.find name ⟨filter, joins⟩ = db.find name ⟨reordered, joins⟩ ∧
        db.count name filter = db.count name reordered) := by
  refine ⟨fun a a' b ha ha' h => ⟨agrees_of_equal h, ?_⟩, ?_, ?_⟩
  · rw [agrees_congr ha ha' h]
  · intro filter reordered records others hfilter hrecords hconditions h
    induction h with
    | nil => rfl
    | @cons record other records others hrecord _ ih =>
      rw [List.forall_mem_cons] at hrecords
      rw [List.map_cons, List.map_cons, ih hrecords.2,
        Filter.admits_of_reordered_conditions hconditions hfilter hrecords.1,
        Filter.admits_of_reordered hrecord hrecords.1]
  · intro db name filter reordered joins hfilter hrecords hconditions
    have hselect : db.select name filter = db.select name reordered :=
      List.filter_congr fun record hrecord =>
        Filter.admits_of_reordered_conditions hconditions hfilter (hrecords record hrecord)
    refine ⟨?_, ?_⟩
    · rw [Database.find, Database.find, hselect]
    · rw [Database.count_eq_length_select, Database.count_eq_length_select, hselect]

/-- A document inside an array is reordered in the record and in the filter, and a zero is turned into
the other one. -/
theorem equal_congruence_nested :
    (document [("x", double ⟨0⟩), ("y", null)]).agrees
      (document [("y", null), ("x", double ⟨0x8000000000000000⟩)]) = true ∧
    [[("at", array [document [("p", int32 1), ("q", string "2")]]), ("n", null)]].map
        (Filter.admits ⟨[("n", null), ("at", document [("q", int32 2), ("p", string "1")])]⟩) =
      [[("n", null), ("at", array [document [("q", string "2"), ("p", int32 1)]])]].map
        (Filter.admits ⟨[("at", document [("p", string "1"), ("q", int32 2)]), ("n", null)]⟩) ∧
    ∃ db : Database, db = ((Command.create "A" [("n", null)]).run Database.empty).2 ∧
      db.count "A" ⟨[("n", null), ("id", int32 1)]⟩ = 1 ∧
      db.count "A" ⟨[("id", int32 1), ("n", null)]⟩ = 1 := by
  obtain ⟨hequal, hreorder, hsearch⟩ := equal_congruence
  refine ⟨(hequal _ _ null ?_ ?_ (by decide +kernel)).1, hreorder _ _ _ _ ?_ ?_ ?_ ?_,
    _, rfl, rfl, ?_⟩
  · simp [WellFormed, FieldsWellFormed]
  · simp [WellFormed, FieldsWellFormed]
  · simp [WellFormed, FieldsWellFormed]
  · simp [WellFormed, FieldsWellFormed, AllWellFormed]
  · have hinner : Reorders (document [("n", null), ("at", document [("q", int32 2), ("p", string "1")])])
        (document [("n", null), ("at", document [("p", string "1"), ("q", int32 2)])]) :=
      @Reorders.field [("n", null)] [] "at" _ _ (.fields (List.Perm.swap _ _ _))
    exact .tail (.single hinner) (.fields (List.Perm.swap _ _ _))
  · have hinner :
        Reorders (document [("at", array [document [("p", int32 1), ("q", string "2")]]), ("n", null)])
          (document [("at", array [document [("q", string "2"), ("p", int32 1)]]), ("n", null)]) :=
      @Reorders.field [] [("n", null)] "at" _ _
        (@Reorders.item [] [] _ _ (.fields (List.Perm.swap _ _ _)))
    exact .cons (.tail (.single hinner) (.fields (List.Perm.swap _ _ _))) .nil
  · refine (hsearch _ "A" ⟨[("n", null), ("id", int32 1)]⟩ _ [] ?_ ?_ ?_).2.symm
    · simp [WellFormed, FieldsWellFormed]
    · rw [Database.records_create_empty]
      simp [WellFormed, FieldsWellFormed, Collection.stored, Fields.without, idField, idValue]
    · exact .single (.fields (List.Perm.swap _ _ _))

end DocumentStore
