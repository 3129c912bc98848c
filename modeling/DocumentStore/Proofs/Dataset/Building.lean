import DocumentStore.Proofs.Dataset.Reading

/-!
# Building a database from a supply

A supply is checked in three layers: first every JSON value, then, when all of them are read, the
records of every collection as they have come together.

* `readValues_eq` and `build_of_isDataset` take the layers apart;
* `build_iff`: which supplies make a database, and by which fault all others fail.
-/

namespace DocumentStore.Supply

/-- The records that a supply holds for a collection: those of its datasets, and behind them those
that its JSON values list, in order. -/
def supplied (supply : Supply) (name : String) : List Document :=
  supply.data.records name ++ supply.values.flatMap fun json => json.entries.concatAt name

variable {supply : Supply} {fault : Fault}

/-! ## The layers -/

/-- All values may be read before any of them is merged. -/
theorem readValues_eq (data : Dataset) (values : List Json) : readValues data values =
    (values.mapM Dataset.ofJson).map fun datasets => datasets.foldl Dataset.merge data :=
  eq_map_mapM (fun _ => rfl) (fun _ _ _ => rfl) data values

/-- The datasets of a supply, and behind them those that its values describe. -/
def total (supply : Supply) : Dataset :=
  (supply.values.map fun json => Dataset.ofEntries json.entries).foldl Dataset.merge supply.data

theorem records_total (supply : Supply) (name : String) :
    supply.total.records name = supply.supplied name := by
  rw [total, Dataset.records_foldl_merge, List.flatMap_map, supplied]
  simp only [Dataset.records_ofEntries]

/-- Where all values describe datasets, these are merged and loaded. -/
theorem build_of_isDataset (h : ∀ json ∈ supply.values, json.IsDataset) :
    supply.build = supply.total.load := by
  rw [build, readValues_eq, mapM_eq_ok_of_forall fun json hmem => Dataset.ofJson_eq_ok (h json hmem)]
  rfl

/-- Where one does not, nothing is loaded. -/
theorem build_of_firstFault (h : FirstFault Dataset.ofJson supply.values fault) :
    supply.build = .error fault := by
  rw [build, readValues_eq, mapM_eq_error_iff.2 h]
  rfl

/-- A row of values describes datasets throughout, or some value of it has the first fault. -/
theorem forall_isDataset_or_firstFault (values : List Json) :
    (∀ json ∈ values, json.IsDataset) ∨ ∃ fault, FirstFault Dataset.ofJson values fault := by
  cases hread : values.mapM Dataset.ofJson with
  | ok datasets =>
    have hall := mapM_succeeds_iff.1 ⟨datasets, hread⟩
    exact .inl fun json hmem => Dataset.ofJson_succeeds_iff.1 (hall json hmem)
  | error fault => exact .inr ⟨fault, mapM_eq_error_iff.1 hread⟩

/-- With a fault in some value not all of them describe datasets. -/
theorem not_forall_isDataset (h : FirstFault Dataset.ofJson supply.values fault) :
    ¬ ∀ json ∈ supply.values, json.IsDataset := by
  obtain ⟨front, bad, back, hvalues, -, hbad⟩ := h
  intro hall
  have hmem : bad ∈ supply.values := hvalues ▸ List.mem_append_right _ List.mem_cons_self
  rw [Dataset.ofJson_eq_ok (hall bad hmem)] at hbad
  cases hbad

/-! ## Success and failure -/

theorem build_succeeds_iff : (∃ db, supply.build = .ok db) ↔
    (∀ json ∈ supply.values, json.IsDataset) ∧
      ∀ name, ∃ c, Collection.ofRecords name (supply.supplied name) = .ok c := by
  rcases forall_isDataset_or_firstFault supply.values with hall | ⟨fault, hfirst⟩
  · rw [build_of_isDataset hall, Dataset.load_succeeds_iff, and_iff_right hall]
    simp only [records_total]
  · rw [build_of_firstFault hfirst]
    simp [not_forall_isDataset hfirst]

theorem build_eq_error_iff : supply.build = .error fault ↔
    FirstFault Dataset.ofJson supply.values fault ∨
      (∀ json ∈ supply.values, json.IsDataset) ∧
        ∃ name, Collection.ofRecords name (supply.supplied name) = .error fault ∧
          ∀ earlier < name, ∃ c, Collection.ofRecords earlier (supply.supplied earlier) = .ok c := by
  rcases forall_isDataset_or_firstFault supply.values with hall | ⟨found, hfirst⟩
  · rw [build_of_isDataset hall, Dataset.load_eq_error_iff, and_iff_right hall,
      or_iff_right fun hfirst => not_forall_isDataset hfirst hall]
    simp only [records_total]
  · have hread := mapM_eq_error_iff.2 hfirst
    rw [build_of_firstFault hfirst, ← mapM_eq_error_iff, hread]
    simp [not_forall_isDataset hfirst]

/-- Which supplies make a database, and by which fault all others fail.

A database is made exactly when every JSON value is an object of arrays of records, and for every
collection the records make one that are supplied for it in all parts together; it then holds these
collections. Otherwise the fault is one of initialization. It is the fault of the first value, in
order, that is not such an object, whatever the collections would be; and where all values are, it
is the fault of the first collection, in the order of names, whose records are refused. The members
of the values have to stand in order, as those of every value do that is read from a text. -/
theorem build_iff {supply : Supply} (h : ∀ json ∈ supply.values, json.Ordered) :
    ((∃ db, supply.build = .ok db) ↔
      (∀ json ∈ supply.values, json.IsDataset) ∧
        ∀ name, ∃ c, Collection.ofRecords name (supply.supplied name) = .ok c) ∧
    (∀ db, supply.build = .ok db → ∀ name,
      Collection.ofRecords name (supply.supplied name) = .ok (db.collection name)) ∧
    (∀ fault, supply.build = .error fault ↔
      (∃ front json back, supply.values = front ++ json :: back ∧
        (∀ earlier ∈ front, earlier.IsDataset) ∧ json.DatasetFault fault) ∨
      (∀ json ∈ supply.values, json.IsDataset) ∧
        ∃ name, Collection.ofRecords name (supply.supplied name) = .error fault ∧
          ∀ earlier < name, ∃ c, Collection.ofRecords earlier (supply.supplied earlier) = .ok c) ∧
    ∀ fault, supply.build = .error fault → fault.kind = .initialization := by
  have hfirst (fault : Fault) : FirstFault Dataset.ofJson supply.values fault ↔
      ∃ front json back, supply.values = front ++ json :: back ∧
        (∀ earlier ∈ front, earlier.IsDataset) ∧ json.DatasetFault fault := by
    unfold FirstFault
    simp only [Dataset.ofJson_succeeds_iff]
    refine exists_congr fun front => exists_congr fun json => exists_congr fun back =>
      and_congr_right fun hvalues => and_congr_right fun _ => Dataset.ofJson_eq_error_iff (h json ?_)
    exact hvalues ▸ List.mem_append_right _ List.mem_cons_self
  refine ⟨build_succeeds_iff, fun db hbuild name => ?_, fun fault => ?_, fun fault hfault => ?_⟩
  · rw [build_of_isDataset (build_succeeds_iff.1 ⟨db, hbuild⟩).1] at hbuild
    rw [← records_total]
    exact Dataset.ofRecords_of_load hbuild name
  · rw [build_eq_error_iff, hfirst]
  · rcases build_eq_error_iff.1 hfault with hvalues | ⟨-, name, hname, -⟩
    · obtain ⟨_, json, _, _, _, hjson⟩ := (hfirst fault).1 hvalues
      exact hjson.kind_eq
    · exact Collection.kind_of_ofRecords_eq_error hname

/-- Two values that list the same identifier in one collection make a database each, but none
together. -/
theorem build_iff_shared_id : ∃ first second : Json,
    first = .object [("A", .array [.object [("id", .integer 1)]]), ("B", .array [])] ∧
    second = .object [("A", .array [.object [("id", .string "1")]])] ∧
    (∀ json ∈ [first, second], json.Ordered) ∧
    (∃ db, build ⟨.empty, [first]⟩ = .ok db) ∧ (∃ db, build ⟨.empty, [second]⟩ = .ok db) ∧
    build ⟨.empty, [first, second]⟩ = .error (.repeatedId 1 "A") := by
  let first : Json := .object [("A", .array [.object [("id", .integer 1)]]), ("B", .array [])]
  let second : Json := .object [("A", .array [.object [("id", .string "1")]])]
  have hordered : ∀ json ∈ [first, second], json.Ordered := by
    simp only [List.forall_mem_cons, List.not_mem_nil, false_imp_iff, implies_true, and_true]
    refine ⟨⟨by decide, ?_⟩, by decide, ?_⟩ <;>
      simp [Json.MembersOrdered, Json.AllOrdered, Json.Ordered]
  have hdatasets : ∀ json ∈ [first, second], json.IsDataset := by
    simp only [List.forall_mem_cons, List.not_mem_nil, false_imp_iff, implies_true, and_true]
    exact ⟨Dataset.ofJson_succeeds_iff.1 ⟨_, rfl⟩, Dataset.ofJson_succeeds_iff.1 ⟨_, rfl⟩⟩
  refine ⟨first, second, rfl, rfl, hordered, ⟨_, rfl⟩, ⟨_, rfl⟩, ?_⟩
  refine ((build_iff hordered).2.2.1 _).2 (.inr ⟨hdatasets, "A", rfl, fun earlier hlt => ?_⟩)
  -- nothing is supplied for a collection with a lesser name
  have hA : "A" ≠ earlier := fun h => String.lt_irrefl _ (h ▸ hlt)
  have hB : "B" ≠ earlier := by
    rintro rfl
    exact absurd hlt (by decide)
  have hnone : supplied ⟨.empty, [first, second]⟩ earlier = [] := by
    simp [first, second, supplied, Dataset.records_empty, Json.entries, Fields.concatAt, hA, hB]
  rw [hnone]
  exact ⟨_, rfl⟩

end DocumentStore.Supply
