import DocumentStore.Proofs.Database.Lookup
import DocumentStore.Proofs.Filter.Conditions

/-!
# What a search selects

A search without joins answers with the records that its filter admits, in the order of the collection.
`find_ofPairs` says this of filters that are gathered from pairs, where the records are those that meet
the pairs; it follows that the order of the pairs does not matter, and that a conjunction selects what
both of its sides select.
-/

namespace DocumentStore.Database

variable {db : Database} {name : String}

theorem mem_find_ofFilter {filter : Filter} {record : Document} :
    record ∈ db.find name (Query.ofFilter filter) ↔
      record ∈ db.records name ∧ filter.admits record = true := by
  rw [find_ofFilter, select, List.mem_filter]

theorem select_ofPairs (db : Database) (name : String) (pairs : List (String × Value)) :
    db.select name (Filter.ofPairs pairs) =
      (db.records name).filter fun record => Filter.Meets pairs record :=
  List.filter_congr fun record _ => Filter.admits_ofPairs pairs record

theorem select_conjunction {filter other : Filter}
    (h : (filter.conditions.names ++ other.conditions.names).Nodup) (db : Database) (name : String) :
    db.select name (filter.conjunction other) = (db.select name filter).filter other.admits := by
  unfold select
  rw [List.filter_filter]
  refine List.filter_congr fun record _ => ?_
  rw [Filter.admits_conjunction h, Bool.and_comm]

/-- What a search by pairs of fields and expectations answers with: the records of the collection, in
their order, that have each field which is mentioned, and hold there, loosely, or among the items of an
array, what the last pair for the field expects. Where no field is mentioned twice, the pairs may come
in any order. The conditions of two filters about different fields select together the records
that both of them select. -/
theorem find_ofPairs (db : Database) (name : String) :
    (∀ pairs : List (String × Value),
      db.find name (Query.ofFilter (Filter.ofPairs pairs)) =
          (db.records name).filter (fun record => Filter.Meets pairs record) ∧
        db.count name (Filter.ofPairs pairs) =
          (db.records name).countP (fun record => Filter.Meets pairs record)) ∧
    (∀ pairs reordered : List (String × Value), (Fields.names pairs).Nodup → pairs.Perm reordered →
      (∀ joins, db.find name ⟨Filter.ofPairs pairs, joins⟩ =
        db.find name ⟨Filter.ofPairs reordered, joins⟩) ∧
      db.count name (Filter.ofPairs pairs) = db.count name (Filter.ofPairs reordered)) ∧
    (∀ filter other : Filter, (filter.conditions.names ++ other.conditions.names).Nodup →
      db.find name (Query.ofFilter (filter.conjunction other)) =
          (db.find name (Query.ofFilter filter)).filter other.admits ∧
        ∀ record, record ∈ db.find name (Query.ofFilter (filter.conjunction other)) ↔
          record ∈ db.find name (Query.ofFilter filter) ∧
            record ∈ db.find name (Query.ofFilter other)) := by
  refine ⟨fun pairs => ⟨?_, ?_⟩, fun pairs reordered hnodup hperm => ?_, fun filter other h => ⟨?_, ?_⟩⟩
  · rw [find_ofFilter, select_ofPairs]
  · rw [count_eq_length_select, select_ofPairs, List.countP_eq_length_filter]
  · have hselect : db.select name (Filter.ofPairs pairs) =
        db.select name (Filter.ofPairs reordered) := by
      simp only [select_ofPairs, Filter.meets_of_perm hnodup hperm]
    refine ⟨fun joins => ?_, ?_⟩
    · rw [find, find, hselect]
    · rw [count_eq_length_select, count_eq_length_select, hselect]
  · rw [find_ofFilter, find_ofFilter, select_conjunction h]
  · intro record
    rw [mem_find_ofFilter, mem_find_ofFilter, mem_find_ofFilter, Filter.admits_conjunction h,
      Bool.and_eq_true, and_and_left]

/-- A field that is mentioned twice, an array inside an array, and a condition that is not met. -/
theorem find_ofPairs_repeated : ∃ db : Database,
    db = ((Command.create "A" [("n", .int32 1), ("tags", .array [.array [.int32 7], .null])]).run
      empty).2 ∧
    db.find "A" (Query.ofFilter (Filter.ofPairs
      [("n", .null), ("tags", .array [.string "7"]), ("n", .string "1.0")])) = db.records "A" ∧
    db.count "A" (Filter.ofPairs [("tags", .null), ("n", .int64 1)]) = 1 ∧
    db.count "A" (Filter.ofPairs [("n", .int64 1), ("tags", .null)]) = 1 ∧
    ∀ record, record ∉ db.find "A" (Query.ofFilter
      ((Filter.matching "n" (.int32 1)).conjunction (Filter.matching "missing" .null))) := by
  let db := ((Command.create "A" [("n", .int32 1), ("tags", .array [.array [.int32 7], .null])]).run
    empty).2
  obtain ⟨hpairs, hperm, hboth⟩ := find_ofPairs db "A"
  have hrecords := records_create_empty "A" [("n", .int32 1), ("tags", .array [.array [.int32 7], .null])]
  have hcount : db.count "A" (Filter.ofPairs [("tags", .null), ("n", .int64 1)]) = 1 := by
    rw [(hpairs _).2, hrecords]
    decide +kernel
  refine ⟨db, rfl, ?_, hcount, ?_, fun record hrecord => ?_⟩
  · rw [(hpairs _).1, List.filter_eq_self, hrecords, List.forall_mem_singleton]
    decide +kernel
  · rw [← hcount]
    exact (hperm _ _ (by decide) (List.Perm.swap _ _ _)).2
  · obtain ⟨-, hmissing⟩ := ((hboth _ _ (by decide)).2 record).1 hrecord
    rw [mem_find_ofFilter, hrecords, List.mem_singleton] at hmissing
    obtain ⟨rfl, hadmits⟩ := hmissing
    revert hadmits
    decide +kernel

end DocumentStore.Database
