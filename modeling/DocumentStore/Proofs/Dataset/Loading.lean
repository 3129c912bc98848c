import DocumentStore.Proofs.Database.Reachable

/-!
# Loading a dataset

A dataset is loaded collection by collection, and the collections do not touch one another:

* `getElem?_of_loadInto` says what a row of collections leaves under every name;
* `ofRecords_of_load`: each collection of the database is the one that its own records make;
* `load_succeeds_iff` and `load_eq_error_iff`: loading fails by the first collection, in the order
  of names, whose records are refused.
-/

namespace DocumentStore.Dataset

variable {data : Dataset} {db next : Database}

/-! ## The collections in a row -/

theorem names_toList (data : Dataset) : Fields.names data.collections.toList = data.names :=
  Std.ExtTreeMap.map_fst_toList_eq_keys

theorem nodup_names_toList (data : Dataset) : (Fields.names data.collections.toList).Nodup :=
  data.names_toList ▸ Std.ExtTreeMap.nodup_keys

theorem ascending_toList (data : Dataset) :
    data.collections.toList.Pairwise fun earlier later => earlier.1 < later.1 := by
  have h := Std.ExtTreeMap.ordered_keys_toList (t := data.collections)
  exact h.imp fun {_ _} hlt => compareOfLessAndEq_eq_lt.1 hlt

theorem mem_toList_iff {name : String} {listed : List Document} :
    (name, listed) ∈ data.collections.toList ↔ name ∈ data.names ∧ data.records name = listed := by
  rw [Std.ExtTreeMap.mem_toList_iff_getElem?_eq_some, names, Std.ExtTreeMap.mem_keys,
    Std.ExtTreeMap.mem_iff_isSome_getElem?, records]
  cases data.collections[name]? <;> simp

/-! ## What is loaded -/

/-- A row of collections, each named once, leaves under every name the collection that its records
make, and leaves all other names alone. -/
theorem getElem?_of_loadInto {entries : Fields (List Document)} (hnodup : entries.names.Nodup)
    (h : loadInto db entries = .ok next) (name : String) :
    (∀ records, (name, records) ∈ entries → ∃ c,
        Collection.ofRecords name records = .ok c ∧ next.collections[name]? = some c) ∧
      (name ∉ entries.names → next.collections[name]? = db.collections[name]?) := by
  induction entries generalizing db with
  | nil =>
    obtain rfl := Except.ok.inj h
    exact ⟨fun records hmem => (nomatch hmem), fun _ => rfl⟩
  | cons entry rest ih =>
    obtain ⟨first, listed⟩ := entry
    obtain ⟨c, hc, hrest⟩ := bind_eq_ok_iff.1 h
    rw [Fields.names_cons, List.nodup_cons] at hnodup
    obtain ⟨hmem, hother⟩ := ih hnodup.2 hrest
    have hput : (db.put first c).collections[name]? =
        if first = name then some c else db.collections[name]? := by
      rw [Database.put, Std.ExtTreeMap.getElem?_insert]
      simp
    constructor
    · intro records hrecords
      rcases List.mem_cons.1 hrecords with heq | hlater
      · -- no later entry has this name, so the collection stays as it is put
        obtain ⟨rfl, rfl⟩ := Prod.ext_iff.1 heq
        exact ⟨c, hc, by rw [hother hnodup.1, hput, if_pos rfl]⟩
      · exact hmem records hlater
    · intro hname
      rw [Fields.names_cons, List.mem_cons, not_or] at hname
      rw [hother hname.2, hput, if_neg (Ne.symm hname.1)]

/-- Every collection of the database that a dataset is loaded into is the one that its own records
make; where the dataset does not name it, this is the empty one. -/
theorem ofRecords_of_load (h : data.load = .ok db) (name : String) :
    Collection.ofRecords name (data.records name) = .ok (db.collection name) := by
  obtain ⟨hmem, hother⟩ := getElem?_of_loadInto data.nodup_names_toList h name
  unfold Dataset.records Database.collection
  cases hdata : data.collections[name]? with
  | none =>
    have hname : name ∉ Fields.names data.collections.toList := by
      rw [names_toList, names, Std.ExtTreeMap.mem_keys, Std.ExtTreeMap.mem_iff_isSome_getElem?, hdata]
      simp
    rw [hother hname]
    rfl
  | some records =>
    obtain ⟨c, hc, hnext⟩ := hmem records (Std.ExtTreeMap.mem_toList_iff_getElem?_eq_some.2 hdata)
    rw [hnext]
    exact hc

/-! ## What is refused -/

/-- The collection that the records of an entry make, under their name. -/
def makeEntry (entry : String × List Document) : Except Fault (String × Collection) :=
  (Collection.ofRecords entry.1 entry.2).map (entry.1, ·)

/-- All collections may be made before any of them is put into the database. -/
theorem loadInto_eq (db : Database) (entries : List (String × List Document)) :
    loadInto db entries = (entries.mapM makeEntry).map fun made =>
      made.foldl (fun db entry => db.put entry.1 entry.2) db := by
  refine eq_map_mapM (fun _ => rfl) (fun db entry rest => ?_) db entries
  rw [loadInto, makeEntry]
  cases Collection.ofRecords entry.1 entry.2 <;> rfl

/-- Without records there is nothing to refuse. -/
theorem exists_ofRecords_of_not_mem {name : String} (h : name ∉ data.names) :
    ∃ c, Collection.ofRecords name (data.records name) = .ok c := by
  have hnone : data.records name = [] := by
    rw [names, Std.ExtTreeMap.mem_keys, Std.ExtTreeMap.mem_iff_isSome_getElem?,
      Option.not_isSome_iff_eq_none] at h
    rw [Dataset.records, h]
    rfl
  rw [hnone]
  exact ⟨_, rfl⟩

theorem load_succeeds_iff : (∃ db, data.load = .ok db) ↔
    ∀ name, ∃ c, Collection.ofRecords name (data.records name) = .ok c := by
  rw [load, loadInto_eq, map_succeeds_iff, mapM_succeeds_iff]
  constructor
  · intro h name
    by_cases hname : name ∈ data.names
    · exact map_succeeds_iff.1 (h _ (mem_toList_iff.2 ⟨hname, rfl⟩))
    · exact exists_ofRecords_of_not_mem hname
  · rintro h ⟨name, listed⟩ hmem
    obtain ⟨-, rfl⟩ := mem_toList_iff.1 hmem
    exact map_succeeds_iff.2 (h name)

/-- Loading fails by the first collection, in the order of names, whose records are refused. -/
theorem load_eq_error_iff {fault : Fault} : data.load = .error fault ↔
    ∃ name, Collection.ofRecords name (data.records name) = .error fault ∧
      ∀ earlier < name, ∃ c, Collection.ofRecords earlier (data.records earlier) = .ok c := by
  rw [load, loadInto_eq, map_eq_error_iff, mapM_eq_error_iff,
    firstFault_iff_of_ascending data.ascending_toList]
  simp only [makeEntry, map_eq_error_iff, map_succeeds_iff]
  constructor
  · rintro ⟨⟨name, listed⟩, hmem, hbad, hleast⟩
    obtain ⟨-, rfl⟩ := mem_toList_iff.1 hmem
    refine ⟨name, hbad, fun earlier hlt => ?_⟩
    by_cases hearlier : earlier ∈ data.names
    · exact hleast _ (mem_toList_iff.2 ⟨hearlier, rfl⟩) hlt
    · exact exists_ofRecords_of_not_mem hearlier
  · rintro ⟨name, hbad, hleast⟩
    have hname : name ∈ data.names := by
      by_contra hnot
      obtain ⟨c, hc⟩ := exists_ofRecords_of_not_mem hnot
      rw [hbad] at hc
      cases hc
    refine ⟨_, mem_toList_iff.2 ⟨hname, rfl⟩, hbad, ?_⟩
    rintro ⟨earlier, listed⟩ hmem hlt
    obtain ⟨-, rfl⟩ := mem_toList_iff.1 hmem
    exact hleast earlier hlt

end DocumentStore.Dataset
