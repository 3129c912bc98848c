import DocumentStore.Proofs.Dataset.Loading
import DocumentStore.Proofs.Join.Expansion
import DocumentStore.Proofs.Session.Identifiers

/-!
# The order of rows

Rows come in the order in which their records were placed, and joins leave that order alone. It is
the order of their identifiers as long as a dataset does not say otherwise: a create hands out an
identifier beyond all others, but a dataset may list the identifiers of its records in any order.

* `sublist_find`: a search answers in the order of the collection;
* `ascending_run_iff`: no command brings the identifiers out of order, or back into it;
* `find_ascending_iff`: the rows ascend exactly when the dataset lists its identifiers so.
-/

namespace DocumentStore

/-- The identifiers of some rows grow from each row to all later ones. -/
def Ascending (rows : List Document) : Prop :=
  (rows.map fun row => row.get? idField).Pairwise fun earlier later =>
    ∃ m n : Int64, earlier = some (.int64 m) ∧ later = some (.int64 n) ∧ m < n

/-! ## One collection -/

/-- Where all numbers behind lie above all numbers before, the order of the latter decides. -/
theorem pairwise_append_iff_of_lt {front back : List Nat} (hback : back.Pairwise (· < ·))
    (hlt : ∀ m ∈ front, ∀ n ∈ back, m < n) :
    (front ++ back).Pairwise (· < ·) ↔ front.Pairwise (· < ·) := by
  rw [List.pairwise_append]
  exact ⟨fun h => h.1, fun h => ⟨h, hback, hlt⟩⟩

namespace Collection

variable {c d : Collection} {name : String} {records : List Document}

theorem Indexed.ascending_iff (h : c.Indexed) :
    Ascending c.records.toList ↔ c.ids.Pairwise (· < ·) := by
  unfold Ascending ids
  rw [List.pairwise_map, List.pairwise_filterMap]
  refine List.Pairwise.iff_of_mem fun hearlier hlater => ?_
  obtain ⟨id, _, h0, hlt, rfl⟩ := h.stored_form _ (Array.mem_toList_iff.1 hearlier)
  obtain ⟨other, _, h0', hlt', rfl⟩ := h.stored_form _ (Array.mem_toList_iff.1 hlater)
  have hle := Nat.le_of_lt hlt
  have hle' := Nat.le_of_lt hlt'
  rw [get?_stored, get?_stored, if_pos rfl, if_pos rfl, recordId?_stored h0 hle,
    recordId?_stored h0' hle']
  simp [idValue, ofNat_lt_ofNat_iff hle hle']

/-- The records that are numbered in a loading come behind all others, in ascending order. -/
theorem ids_pairwise_ofRecords_iff (h : ofRecords name records = .ok d) :
    d.ids.Pairwise (· < ·) ↔ (records.filterMap recordId?).Pairwise (· < ·) := by
  rw [(records_ofRecords h).2, numbers_numbered]
  refine pairwise_append_iff_of_lt List.pairwise_lt_range' fun m hm n hn => ?_
  have hlargest : m < largestId records + 1 :=
    (largestId_lt_iff.1 (Nat.lt_succ_self (largestId records))).2 m hm
  have hnumbered := (List.mem_range'_1.1 hn).1
  omega

end Collection

namespace Database

variable {db start : Database} {data : Dataset}

/-! ## A search -/

/-- A search answers in the order of the collection. -/
theorem sublist_find (db : Database) (name : String) {query : Query}
    (h : idField ∉ Fields.names query.joins) :
    ((db.find name query).map fun row => row.get? idField).Sublist
      ((db.records name).map fun row => row.get? idField) := by
  have hids : ((db.find name query).map fun row => row.get? idField) =
      (db.select name query.filter).map fun row => row.get? idField := by
    rw [find, List.map_map]
    exact List.map_congr_left fun row _ => get?_resolve db h row
  rw [hids]
  exact List.filter_sublist.map _

/-! ## A session -/

/-- No command brings the identifiers of a collection out of order, or back into it. -/
theorem ascending_run_iff (h : db.Consistent) (commands : List Command) (name : String) :
    Ascending ((db.run commands).2.records name) ↔ Ascending (db.records name) := by
  have hc := h.collection name
  have hend := (h.session commands).collection name
  unfold records
  rw [hend.ascending_iff, hc.ascending_iff, ids_run h, numbers_created_run h]
  refine pairwise_append_iff_of_lt (List.Pairwise.filter _ List.pairwise_lt_range') fun m hm n hn => ?_
  have hnext := hc.lt_nextId hm
  have hcreated := (List.mem_range'_1.1 (List.mem_filter.1 hn).1).1
  omega

/-- The order of the rows in any session on a dataset that is loaded. A search answers in the order
of the collection. This is the ascending order of the identifiers, for the collection and for every
search in it, exactly when the dataset lists those of its records that carry an identifier in
ascending order; the commands make no difference. -/
theorem find_ascending_iff (h : data.load = .ok start) (commands : List Command) (name : String) :
    let final := (start.run commands).2
    (∀ query : Query, idField ∉ Fields.names query.joins →
      ((final.find name query).map fun row => row.get? idField).Sublist
        ((final.records name).map fun row => row.get? idField)) ∧
    ((Ascending (final.records name) ∧
        ∀ query : Query, idField ∉ Fields.names query.joins → Ascending (final.find name query)) ↔
      ((data.records name).filterMap recordId?).Pairwise (· < ·)) := by
  intro final
  have hstart := (Reachable.load h).consistent
  have hrecords : Ascending (final.records name) ↔
      ((data.records name).filterMap recordId?).Pairwise (· < ·) := by
    rw [ascending_run_iff hstart, records, (hstart.collection name).ascending_iff,
      Collection.ids_pairwise_ofRecords_iff (Dataset.ofRecords_of_load h name)]
  refine ⟨fun query => sublist_find final name, fun hboth => hrecords.1 hboth.1, fun hlisted => ?_⟩
  have hall := hrecords.2 hlisted
  exact ⟨hall, fun query hjoins => hall.sublist (sublist_find final name hjoins)⟩

/-- Records that are listed in ascending order, with one between them that is still to be numbered. -/
theorem find_ascending_numbered : ∃ start,
    (Dataset.empty.add "A" [[("id", .int32 1)], [("n", .null)], [("id", .int32 4)]]).load =
      .ok start ∧
    Ascending ((start.run [.create "A" []]).2.find "A" Query.all) := by
  have hload : ∃ start, (Dataset.empty.add "A"
      [[("id", .int32 1)], [("n", .null)], [("id", .int32 4)]]).load = .ok start := ⟨_, rfl⟩
  obtain ⟨start, hload⟩ := hload
  have hlisted := (find_ascending_iff hload [.create "A" []] "A").2.2 (by decide)
  exact ⟨start, hload, hlisted.2 Query.all (by decide)⟩

/-- Records that are listed in descending order stay so. -/
theorem find_descending : ∃ start,
    (Dataset.empty.add "A" [[("id", .int32 2)], [("id", .int32 1)]]).load = .ok start ∧
    start.find "A" Query.all = [[("id", .int64 2)], [("id", .int64 1)]] ∧
    ¬ Ascending (start.find "A" Query.all) := by
  refine ⟨_, rfl, rfl, fun h => ?_⟩
  obtain ⟨m, n, hm, hn, hlt⟩ := List.rel_of_pairwise_cons h List.mem_cons_self
  obtain rfl : 2 = m := Value.int64.inj (Option.some.inj hm)
  obtain rfl : 1 = n := Value.int64.inj (Option.some.inj hn)
  exact absurd hlt (by decide)

end Database

end DocumentStore
