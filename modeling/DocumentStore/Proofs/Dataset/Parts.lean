import DocumentStore.Dataset.Part
import DocumentStore.Proofs.Dataset.Reading

/-!
# Datasets in parts

However parts are grouped, what counts are their leaves: the texts, JSON values and lists of records,
from left to right.

* `read_eq_concat`: a part is read as its leaves are, one after the other, and fails as the first of
  them that fails;
* `Supplies` says what a well-shaped leaf lists, and `read_of_supplies` that the part then holds all of
  it, collection by collection and in order;
* `merge_assoc` and `merge_comm_of_disjoint` are the laws of merging that follow;
* `read_leaves` puts this together.
-/

namespace DocumentStore

namespace Dataset

/-! ## Laws of merging -/

/-- A list of records is added as a dataset of its own would be merged. -/
theorem merge_add_empty (data : Dataset) (name : String) (listed : List Document) :
    data.merge (empty.add name listed) = data.add name listed := by
  refine ext_records (fun other => ?_) fun other => ?_
  · rw [mem_names_merge, mem_names_add, mem_names_add, or_iff_left not_mem_names_empty, or_comm]
  · rw [records_merge, records_add, records_add, records_empty, records_empty, List.nil_append]
    split
    · next hname => rw [hname]
    · rw [List.append_nil]

theorem merge_assoc (first second third : Dataset) :
    (first.merge second).merge third = first.merge (second.merge third) := by
  refine ext_records (fun name => ?_) fun name => ?_
  · simp only [mem_names_merge, or_assoc]
  · simp only [records_merge, List.append_assoc]

theorem records_of_not_mem_names {data : Dataset} {name : String} (h : name ∉ data.names) :
    data.records name = [] := by
  rw [names, Std.ExtTreeMap.mem_keys] at h
  rw [records, Std.ExtTreeMap.getElem?_eq_none h]
  rfl

/-- A named collection is read back, and an unknown name is not one of the names. -/
theorem getElem?_collections (data : Dataset) (name : String) :
    data.collections[name]? = if name ∈ data.names then some (data.records name) else none := by
  have hiff : name ∈ data.names ↔ (data.collections[name]?).isSome := by
    rw [names, Std.ExtTreeMap.mem_keys, Std.ExtTreeMap.mem_iff_isSome_getElem?]
  rw [records]
  cases hname : data.collections[name]? with
  | none => rw [if_neg (by simp [hiff, hname])]
  | some listed =>
    rw [if_pos (by simp [hiff, hname])]
    rfl

/-- Datasets that name no collection in common may be merged in either order. -/
theorem merge_comm_of_disjoint {first second : Dataset}
    (h : ∀ name ∈ first.names, name ∉ second.names) : first.merge second = second.merge first := by
  refine ext_records (fun name => ?_) fun name => ?_
  · rw [mem_names_merge, mem_names_merge, or_comm]
  · rw [records_merge, records_merge]
    by_cases hname : name ∈ first.names
    · rw [records_of_not_mem_names (h name hname), List.append_nil, List.nil_append]
    · rw [records_of_not_mem_names hname, List.append_nil, List.nil_append]

/-- Datasets merged into another one are merged with each other first. -/
theorem foldl_merge_eq (datasets : List Dataset) (data : Dataset) :
    datasets.foldl merge data = data.merge (concat datasets) := by
  refine ext_records (fun name => ?_) fun name => ?_
  · rw [mem_names_foldl_merge, mem_names_merge, mem_names_concat]
  · rw [records_foldl_merge, records_merge, records_concat]

theorem concat_cons (data : Dataset) (rest : List Dataset) :
    concat (data :: rest) = data.merge (concat rest) := by
  rw [concat, List.foldl_cons, empty_merge, foldl_merge_eq]

theorem concat_append (front back : List Dataset) :
    concat (front ++ back) = (concat front).merge (concat back) := by
  rw [concat, List.foldl_append, foldl_merge_eq, ← concat]

/-! ## Entries in a row -/

theorem mem_names_ofEntries {entries : Fields (List Document)} {name : String} :
    name ∈ (ofEntries entries).names ↔ name ∈ entries.names := by
  rw [ofEntries, mem_names_foldl_add, or_iff_right not_mem_names_empty]

/-- Entries added in a row are merged when they are added apart. -/
theorem ofEntries_append (front back : Fields (List Document)) :
    ofEntries (front ++ back) = (ofEntries front).merge (ofEntries back) := by
  refine ext_records (fun name => ?_) fun name => ?_
  · rw [mem_names_merge, mem_names_ofEntries, mem_names_ofEntries, mem_names_ofEntries,
      Fields.names_append, List.mem_append]
  · rw [records_merge, records_ofEntries, records_ofEntries, records_ofEntries, Fields.concatAt,
      List.flatMap_append, Fields.concatAt, Fields.concatAt]

theorem concat_map_ofEntries (lists : List (Fields (List Document))) :
    concat (lists.map ofEntries) = ofEntries lists.flatten := by
  induction lists with
  | nil => rfl
  | cons entries rest ih => rw [List.map_cons, concat_cons, ih, List.flatten_cons, ofEntries_append]

namespace Part

/-! ## Leaves -/

mutual

/-- The parts inside a part that are no groups themselves, from left to right. -/
def leaves : Part → List Part
  | group parts => allLeaves parts
  | part => [part]

/-- The leaves of parts, from left to right. -/
def allLeaves : List Part → List Part
  | [] => []
  | part :: rest => leaves part ++ allLeaves rest

end

/-- A part that is no group, and the lists of records that it has for collections, in order. -/
inductive Supplies : Part → Fields (List Document) → Prop
  /-- The text writes a JSON value that describes a dataset. -/
  | text {source : String} {value : Json} (h : Json.ofText? source = some value)
      (hvalue : value.IsDataset) : Supplies (text source) value.entries
  /-- The JSON value describes a dataset. -/
  | json {value : Json} (h : value.IsDataset) : Supplies (json value) value.entries
  /-- The records of one collection. -/
  | records (name : String) (listed : List Document) :
      Supplies (records name listed) [(name, listed)]

/-- All parts of a group may be read before any of them is merged. -/
theorem readAll_eq (data : Dataset) (parts : List Part) : readAll data parts =
    (parts.mapM read).map fun datasets => datasets.foldl merge data :=
  eq_map_mapM (fun _ => rfl) (fun _ _ _ => rfl) data parts

theorem read_group (parts : List Part) : (group parts).read = (parts.mapM read).map concat :=
  readAll_eq empty parts

theorem map_concat_singleton (part : Part) :
    (([part] : List Part).mapM read).map concat = part.read := by
  rw [List.mapM_cons, List.mapM_nil]
  cases part.read with
  | error fault => rfl
  | ok data => exact congrArg Except.ok (empty_merge data)

theorem map_concat_append (front back : List Part) :
    ((front ++ back).mapM read).map concat = do
      return (← (front.mapM read).map concat).merge (← (back.mapM read).map concat) := by
  rw [List.mapM_append]
  cases front.mapM read with
  | error fault => rfl
  | ok first =>
    cases back.mapM read with
    | error fault => rfl
    | ok second => exact congrArg Except.ok (concat_append first second)

mutual

/-- A part is read as its leaves are, one after the other. -/
theorem read_eq_concat : (part : Part) → part.read = (part.leaves.mapM read).map concat
  | text source => (map_concat_singleton (text source)).symm
  | json value => (map_concat_singleton (json value)).symm
  | records name listed => (map_concat_singleton (records name listed)).symm
  | group parts => (read_group parts).trans (map_concat_eq parts)

theorem map_concat_eq : (parts : List Part) →
    (parts.mapM read).map concat = ((allLeaves parts).mapM read).map concat
  | [] => rfl
  | part :: rest => by
    have hsplit := map_concat_append [part] rest
    rw [map_concat_singleton, read_eq_concat part, map_concat_eq rest, ← map_concat_append] at hsplit
    exact hsplit

end

/-! ## Well-shaped leaves -/

/-- A well-shaped leaf is read as the dataset of the lists that it has. -/
theorem Supplies.read_eq {part : Part} {listed : Fields (List Document)} (h : part.Supplies listed) :
    part.read = .ok (ofEntries listed) := by
  cases h with
  | text h hvalue =>
    rw [read, ofText, h]
    exact ofJson_eq_ok hvalue
  | json h => exact ofJson_eq_ok h
  | records name listed => rfl

/-- What well-shaped leaves list is held by the part, name by name and in order. -/
theorem read_of_supplies {part : Part} {lists : List (Fields (List Document))}
    (h : List.Forall₂ Supplies part.leaves lists) : part.read = .ok (ofEntries lists.flatten) := by
  have hread : part.leaves.mapM read = .ok (lists.map ofEntries) := by
    rw [mapM_eq_ok_iff, List.forall₂_map_right_iff]
    exact h.imp fun _ _ hleaf => hleaf.read_eq
  rw [read_eq_concat, hread, ← concat_map_ofEntries]
  rfl

/-- How a dataset comes about that is put together from parts.

A part of well-shaped leaves holds every collection that some leaf mentions, be it without records,
and no other. A collection holds what the leaves list for it, from left to right. It does not matter
how leaves are grouped, whether they are well-shaped or not, for the database that is made of them or
for the fault that prevents it. Adding a list is merging it, merging is associative with the empty
dataset as its identity, and datasets without a collection in common may be merged in either order. -/
theorem read_leaves :
    (∀ (part : Part) (lists : List (Fields (List Document))),
      List.Forall₂ Supplies part.leaves lists → ∃ data, part.read = .ok data ∧
        ∀ name : String, data.collections[name]? =
          if name ∈ Fields.names lists.flatten then some (Fields.concatAt lists.flatten name)
          else none) ∧
    (∀ part other : Part, part.leaves = other.leaves →
      (do (← part.read).load : Except Fault Database) = do (← other.read).load) ∧
    (∀ (data : Dataset) (name : String) (listed : List Document),
      data.merge (empty.add name listed) = data.add name listed) ∧
    (∀ first second third : Dataset,
      (first.merge second).merge third = first.merge (second.merge third)) ∧
    (∀ data : Dataset, empty.merge data = data ∧ data.merge empty = data) ∧
    (∀ first second : Dataset, (∀ name ∈ first.names, name ∉ second.names) →
      first.merge second = second.merge first) := by
  refine ⟨fun part lists h => ⟨_, read_of_supplies h, fun name => ?_⟩, fun part other h => ?_,
    merge_add_empty, merge_assoc, fun data => ⟨empty_merge data, merge_empty data⟩,
    fun first second => merge_comm_of_disjoint⟩
  · simp only [getElem?_collections, mem_names_ofEntries, records_ofEntries]
  · rw [read_eq_concat part, h, ← read_eq_concat other]

/-- One collection is mentioned without records, and the other one by leaves of two groups. -/
theorem read_leaves_nested : ∃ part data,
    part = group [records "B" [],
      group [json (.object [("A", .array [.object [("n", .integer 1)]])])],
      group [group [], records "A" [[("id", .int64 5)]]]] ∧
    part.read = .ok data ∧
    data.collections["A"]? = some [[("n", .int64 1)], [("id", .int64 5)]] ∧
    data.collections["B"]? = some [] ∧ data.collections["C"]? = none := by
  let value : Json := .object [("A", .array [.object [("n", .integer 1)]])]
  have hvalue : value.IsDataset := ofJson_succeeds_iff.1 ⟨_, rfl⟩
  have hleaves : List.Forall₂ Supplies
      [records "B" [], json value, records "A" [[("id", .int64 5)]]]
      [[("B", [])], value.entries, [("A", [[("id", .int64 5)]])]] :=
    .cons (Supplies.records _ _) (.cons (Supplies.json hvalue) (.cons (Supplies.records _ _) .nil))
  obtain ⟨data, hread, hcollections⟩ := read_leaves.1 (group [records "B" [], group [json value],
    group [group [], records "A" [[("id", .int64 5)]]]]) _ hleaves
  exact ⟨_, data, rfl, hread, hcollections "A", hcollections "B", hcollections "C"⟩

end Part

end Dataset

end DocumentStore
