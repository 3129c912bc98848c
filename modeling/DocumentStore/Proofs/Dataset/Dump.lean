import DocumentStore.Proofs.Database.Reachable
import DocumentStore.Proofs.Fields

/-!
# Dumping and loading again

The dump of a database lists the records of its collections and says nothing of their indexes and
sequences. In a reachable database nothing is lost by that.

* `getElem?_ofEntries`: the dataset of a dump holds each collection as it is listed;
* `loadInto_of_made` says what loading does when the records of every collection make it;
* `load_dump`: a dump, its collections in any order, loads into the very database that was dumped.
-/

namespace DocumentStore

/-- The records of every collection, in ascending order of names. -/
def Database.dump (db : Database) : Fields (List Document) :=
  db.names.map fun name => (name, db.records name)

namespace Dataset

/-- The dataset to which collections are added one after the other. -/
def ofEntries (entries : Fields (List Document)) : Dataset :=
  entries.foldl (fun data entry => data.add entry.1 entry.2) empty

/-- Collections that are new to a dataset, and each added once, are held as they are listed. -/
theorem getElem?_foldl_add {entries : Fields (List Document)} (hnodup : entries.names.Nodup)
    {data : Dataset} (hnew : ∀ name ∈ entries.names, data.collections[name]? = none)
    (name : String) :
    (entries.foldl (fun data entry => data.add entry.1 entry.2) data).collections[name]? =
      (entries.get? name).or data.collections[name]? := by
  induction entries generalizing data with
  | nil => rfl
  | cons entry rest ih =>
    obtain ⟨first, records⟩ := entry
    rw [Fields.names_cons, List.nodup_cons] at hnodup
    rw [Fields.names_cons, List.forall_mem_cons] at hnew
    have hadd (other : String) : (data.add first records).collections[other]? =
        if first = other then some records else data.collections[other]? := by
      rw [add, Dataset.records, hnew.1, Std.ExtTreeMap.getElem?_insert]
      simp
    have hrest : ∀ other ∈ Fields.names rest,
        (data.add first records).collections[other]? = none := by
      intro other hother
      have hne : first ≠ other := by
        rintro rfl
        exact hnodup.1 hother
      rw [hadd, if_neg hne]
      exact hnew.2 other hother
    rw [List.foldl_cons, ih hnodup.2 hrest, hadd, Fields.get?_cons]
    by_cases hname : first = name
    · -- no later entry names this collection, so it stays as it was added
      subst hname
      rw [if_pos rfl, if_pos rfl, Fields.get?_eq_none_iff.2 hnodup.1]
      rfl
    · rw [if_neg hname, if_neg hname]

theorem getElem?_ofEntries {entries : Fields (List Document)} (hnodup : entries.names.Nodup)
    (name : String) : (ofEntries entries).collections[name]? = entries.get? name := by
  have hempty (other : String) : empty.collections[other]? = none := by simp [empty]
  rw [ofEntries, getElem?_foldl_add hnodup (fun other _ => hempty other), hempty, Option.or_none]

/-- Gathering entries neither loses nor makes up any. -/
theorem mem_toList_ofEntries_iff {entries : Fields (List Document)} (hnodup : entries.names.Nodup)
    {entry : String × List Document} :
    entry ∈ (ofEntries entries).collections.toList ↔ entry ∈ entries := by
  obtain ⟨name, records⟩ := entry
  rw [Std.ExtTreeMap.mem_toList_iff_getElem?_eq_some, getElem?_ofEntries hnodup,
    Fields.mem_iff_get?_eq_some hnodup]

/-- Where the records of every entry make a collection, loading puts these collections, and leaves
all others as they were. -/
theorem loadInto_of_made {made : String → Collection} {entries : Fields (List Document)}
    (hmade : ∀ entry ∈ entries, Collection.ofRecords entry.1 entry.2 = .ok (made entry.1))
    (db : Database) : ∃ next, loadInto db entries = .ok next ∧ ∀ name : String,
      next.collections[name]? =
        if name ∈ entries.names then some (made name) else db.collections[name]? := by
  induction entries generalizing db with
  | nil => exact ⟨db, rfl, fun _ => rfl⟩
  | cons entry rest ih =>
    rw [List.forall_mem_cons] at hmade
    obtain ⟨next, hnext, hread⟩ := ih hmade.2 (db.put entry.1 (made entry.1))
    refine ⟨next, bind_eq_ok_iff.2 ⟨_, hmade.1, hnext⟩, fun name => ?_⟩
    rw [hread, Database.put, Std.ExtTreeMap.getElem?_insert]
    -- should a later entry have the same name, it makes the same collection
    by_cases hrest : name ∈ Fields.names rest
    · have hmem : name ∈ Fields.names (entry :: rest) := List.mem_cons_of_mem _ hrest
      rw [if_pos hrest, if_pos hmem]
    · rw [if_neg hrest]
      by_cases hname : entry.1 = name
      · simp [hname]
      · simp [hrest, hname, Ne.symm hname]

end Dataset

namespace Database

variable {db : Database}

theorem nodup_names (db : Database) : db.names.Nodup :=
  Std.ExtTreeMap.nodup_keys

theorem names_dump (db : Database) : db.dump.names = db.names := by
  rw [dump, Fields.names, List.map_map]
  exact List.map_id _

/-- A known collection is read back, and an unknown name is not one of the names. -/
theorem getElem?_collections (db : Database) (name : String) :
    db.collections[name]? = if name ∈ db.names then some (db.collection name) else none := by
  have hiff : name ∈ db.names ↔ (db.collections[name]?).isSome := by
    rw [names, Std.ExtTreeMap.mem_keys, Std.ExtTreeMap.mem_iff_isSome_getElem?]
  rw [collection]
  cases hname : db.collections[name]? with
  | none => rw [if_neg (by simp [hiff, hname])]
  | some collection =>
    rw [if_pos (by simp [hiff, hname])]
    rfl

theorem ext_getElem? {other : Database}
    (h : ∀ name : String, db.collections[name]? = other.collections[name]?) : db = other := by
  cases db
  cases other
  exact congrArg mk (Std.ExtTreeMap.ext_getElem? h)

/-- A dump of a reachable database, its collections in any order, loads into that very database:
the same collections with the same records, and sequences that go on from the same identifiers. -/
theorem load_dump (h : db.Reachable) {entries : Fields (List Document)}
    (hperm : entries.Perm db.dump) : (Dataset.ofEntries entries).load = .ok db := by
  have hnames : entries.names.Perm db.names := names_dump db ▸ hperm.map Prod.fst
  have hnodup : entries.names.Nodup := hnames.nodup_iff.2 db.nodup_names
  have hmem (entry : String × List Document) :
      entry ∈ (Dataset.ofEntries entries).collections.toList ↔ entry ∈ db.dump := by
    rw [Dataset.mem_toList_ofEntries_iff hnodup, hperm.mem_iff]
  -- the records say enough to make every collection again, its sequence included
  have hmade : ∀ entry ∈ (Dataset.ofEntries entries).collections.toList,
      Collection.ofRecords entry.1 entry.2 = .ok (db.collection entry.1) := by
    intro entry hentry
    obtain ⟨name, -, rfl⟩ := List.mem_map.1 ((hmem entry).1 hentry)
    exact Collection.ofRecords_records (h.consistent.collection name)
  have hlisted (name : String) :
      name ∈ Fields.names (Dataset.ofEntries entries).collections.toList ↔ name ∈ db.names := by
    rw [← names_dump, Fields.names, Fields.names, List.mem_map, List.mem_map]
    simp only [hmem]
  obtain ⟨next, hnext, hread⟩ := Dataset.loadInto_of_made hmade empty
  have hsame : next = db := by
    refine ext_getElem? fun name => ?_
    have hempty : empty.collections[name]? = none := Std.ExtTreeMap.getElem?_empty
    rw [hread, hempty, getElem?_collections db]
    simp only [hlisted]
  rw [Dataset.load, hnext, hsame]

/-- One collection has used up its sequence and the other holds nothing, and they come back from
their dump in the other order. -/
theorem load_dump_reversed : ∃ db : Database, db.Reachable ∧
    db.dump = [("A", [[(idField, idValue (maxId - 1))]]), ("B", [])] ∧
    (Dataset.ofEntries [("B", []), ("A", [[(idField, idValue (maxId - 1))]])]).load = .ok db := by
  have hload : ∃ db, db.dump = [("A", [[(idField, idValue (maxId - 1))]]), ("B", [])] ∧
      (Dataset.ofEntries [("A", [[(idField, idValue (maxId - 1))]]), ("B", [])]).load = .ok db :=
    ⟨_, rfl, rfl⟩
  obtain ⟨db, hdump, hload⟩ := hload
  have hreach : db.Reachable := .load hload
  refine ⟨db, hreach, hdump, load_dump hreach ?_⟩
  rw [hdump]
  exact List.Perm.swap _ _ _

end Database

end DocumentStore
