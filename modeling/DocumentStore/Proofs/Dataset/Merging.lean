import DocumentStore.Proofs.Dataset.Dump
import DocumentStore.Proofs.Dataset.Loading

/-!
# Merging datasets

A dataset is given by its names and by the records under each of them. A merge appends records
name by name, and it names what either side names.

* `records_foldl_add`: what a row of additions leaves under a name;
* `records_merge` and `mem_names_merge` are the laws of a merge, `ext_records` says that there is
  nothing more to a dataset;
* `records_concat`: datasets merged in a row hold what each of them holds, in that order.
-/

namespace DocumentStore

/-- All that entries hold under a name, in order, where each entry holds a list. -/
def Fields.concatAt {α : Type} (entries : Fields (List α)) (name : String) : List α :=
  entries.flatMap fun entry => if entry.1 = name then entry.2 else []

theorem Fields.concatAt_cons {α : Type} (entry : String × List α) (rest : Fields (List α))
    (name : String) : concatAt (entry :: rest) name =
      (if entry.1 = name then entry.2 else []) ++ concatAt rest name :=
  List.flatMap_cons

/-- Where no name occurs twice, there is one list under a name at most. -/
theorem Fields.concatAt_of_nodup {α : Type} {entries : Fields (List α)}
    (h : entries.names.Nodup) (name : String) :
    entries.concatAt name = (entries.get? name).getD [] := by
  induction entries with
  | nil => rfl
  | cons entry rest ih =>
    rw [names_cons, List.nodup_cons] at h
    rw [concatAt_cons, get?_cons, ih h.2]
    by_cases hname : entry.1 = name
    · have hnone : get? rest name = none := get?_eq_none_iff.2 (hname ▸ h.1)
      rw [if_pos hname, if_pos hname, hnone]
      exact List.append_nil _
    · rw [if_neg hname, if_neg hname, List.nil_append]

namespace Dataset

variable {data other : Dataset} {name : String}

/-! ## Rows of additions -/

theorem records_foldl_add (entries : Fields (List Document)) (data : Dataset) (name : String) :
    (entries.foldl (fun data entry => data.add entry.1 entry.2) data).records name =
      data.records name ++ entries.concatAt name := by
  induction entries generalizing data with
  | nil => exact (List.append_nil _).symm
  | cons entry rest ih =>
    rw [List.foldl_cons, ih, records_add, Fields.concatAt_cons]
    split
    · next hname => rw [hname, List.append_assoc]
    · rw [List.nil_append]

theorem mem_names_foldl_add (entries : Fields (List Document)) (data : Dataset) :
    name ∈ (entries.foldl (fun data entry => data.add entry.1 entry.2) data).names ↔
      name ∈ data.names ∨ name ∈ entries.names := by
  induction entries generalizing data with
  | nil => simp
  | cons entry rest ih =>
    rw [List.foldl_cons, ih, mem_names_add, Fields.names_cons, List.mem_cons, or_assoc, or_left_comm,
      @eq_comm _ name]

theorem records_empty (name : String) : empty.records name = [] := by
  rw [records, empty, Std.ExtTreeMap.getElem?_empty]
  rfl

theorem not_mem_names_empty : name ∉ empty.names := by
  rw [names, empty, Std.ExtTreeMap.mem_keys]
  exact Std.ExtTreeMap.not_mem_empty

/-- Entries that are added to the empty dataset are held name by name. -/
theorem records_ofEntries (entries : Fields (List Document)) (name : String) :
    (ofEntries entries).records name = entries.concatAt name := by
  rw [ofEntries, records_foldl_add, records_empty, List.nil_append]

/-! ## A merge -/

/-- A dataset holds under each name what its entries hold. -/
theorem concatAt_toList (data : Dataset) (name : String) :
    Fields.concatAt data.collections.toList name = data.records name := by
  rw [Fields.concatAt_of_nodup data.nodup_names_toList, records]
  congr 1
  refine Option.ext fun listed => ?_
  rw [← Fields.mem_iff_get?_eq_some data.nodup_names_toList,
    Std.ExtTreeMap.mem_toList_iff_getElem?_eq_some]

/-- A merge appends the records of the other side, name by name. -/
theorem records_merge (data other : Dataset) (name : String) :
    (data.merge other).records name = data.records name ++ other.records name := by
  rw [merge, records_foldl_add, concatAt_toList]

/-- A merge names what either side names. -/
theorem mem_names_merge :
    name ∈ (data.merge other).names ↔ name ∈ data.names ∨ name ∈ other.names := by
  rw [merge, mem_names_foldl_add, names_toList]

/-- A dataset is given by its names and by the records under each of them. -/
theorem ext_records (hnames : ∀ name, name ∈ data.names ↔ name ∈ other.names)
    (hrecords : ∀ name, data.records name = other.records name) : data = other := by
  have hread (name : String) : data.collections[name]? = other.collections[name]? := by
    refine Option.ext fun listed => ?_
    rw [← Std.ExtTreeMap.mem_toList_iff_getElem?_eq_some, mem_toList_iff, hnames, hrecords,
      ← mem_toList_iff, Std.ExtTreeMap.mem_toList_iff_getElem?_eq_some]
  cases data
  cases other
  exact congrArg mk (Std.ExtTreeMap.ext_getElem? hread)

theorem empty_merge (data : Dataset) : empty.merge data = data := by
  refine ext_records (fun name => ?_) fun name => ?_
  · rw [mem_names_merge, or_iff_right not_mem_names_empty]
  · rw [records_merge, records_empty, List.nil_append]

theorem merge_empty (data : Dataset) : data.merge empty = data := by
  refine ext_records (fun name => ?_) fun name => ?_
  · rw [mem_names_merge, or_iff_left not_mem_names_empty]
  · rw [records_merge, records_empty, List.append_nil]

/-! ## Many merges -/

/-- Datasets merged one after the other. -/
def concat (datasets : List Dataset) : Dataset := datasets.foldl merge empty

theorem records_foldl_merge (datasets : List Dataset) (data : Dataset) (name : String) :
    (datasets.foldl merge data).records name =
      data.records name ++ datasets.flatMap fun data => data.records name := by
  induction datasets generalizing data with
  | nil => exact (List.append_nil _).symm
  | cons first rest ih =>
    rw [List.foldl_cons, ih, records_merge, List.flatMap_cons, List.append_assoc]

theorem mem_names_foldl_merge (datasets : List Dataset) (data : Dataset) :
    name ∈ (datasets.foldl merge data).names ↔
      name ∈ data.names ∨ ∃ data ∈ datasets, name ∈ data.names := by
  induction datasets generalizing data with
  | nil => simp
  | cons first rest ih =>
    rw [List.foldl_cons, ih, mem_names_merge, or_assoc]
    simp

/-- Datasets merged in a row hold what each of them holds, in that order. -/
theorem records_concat (datasets : List Dataset) (name : String) :
    (concat datasets).records name = datasets.flatMap fun data => data.records name := by
  rw [concat, records_foldl_merge, records_empty, List.nil_append]

/-- They name what any of them names. -/
theorem mem_names_concat {datasets : List Dataset} :
    name ∈ (concat datasets).names ↔ ∃ data ∈ datasets, name ∈ data.names := by
  rw [concat, mem_names_foldl_merge, or_iff_right not_mem_names_empty]

end Dataset

end DocumentStore
