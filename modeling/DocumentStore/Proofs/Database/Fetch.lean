import DocumentStore.Proofs.Database.Lookup

/-!
# Searching with a hydrator

A search hydrates the records that it finds, after their joins have been resolved, and stops at the
first of them that the hydrator turns down. A count looks at neither joins nor hydrator.

* `fetch_eq_ok_iff` and `fetch_eq_error_iff`: what such a search answers;
* `fetch_iff_count` holds it against the count by the same filter.
-/

namespace DocumentStore.Database

variable {β ε : Type} {db : Database} {hydrate : Hydrator β ε} {name : String} {query : Query}

/-- The number of records that a search finds does not depend on its joins. -/
theorem length_find (db : Database) (name : String) (query : Query) :
    (db.find name query).length = db.count name query.filter := by
  rw [find, List.length_map, count_eq_length_select]

/-- A search answers with one item for each record that it finds, what the hydrator makes of it. -/
theorem fetch_eq_ok_iff {items : List β} : db.fetch hydrate name query = .ok items ↔
    items.length = db.count name query.filter ∧
      ∀ (i : Nat) (row : Document), (db.find name query)[i]? = some row →
        ∃ item, items[i]? = some item ∧ hydrate name row = .ok item := by
  rw [fetch, mapM_eq_ok_iff, List.forall₂_iff_get, ← length_find, @eq_comm _ items.length]
  refine and_congr_right fun hlength => ⟨fun h i row hrow => ?_, fun h i hi hitem => ?_⟩
  · obtain ⟨hi, rfl⟩ := List.getElem?_eq_some_iff.1 hrow
    have hitem : i < items.length := hlength ▸ hi
    exact ⟨items[i], List.getElem?_eq_getElem hitem, h i hi hitem⟩
  · obtain ⟨item, hsome, hok⟩ := h i _ (List.getElem?_eq_getElem hi)
    obtain ⟨_, rfl⟩ := List.getElem?_eq_some_iff.1 hsome
    exact hok

/-- It fails by the first record that the hydrator turns down. -/
theorem fetch_eq_error_iff {fault : ε} : db.fetch hydrate name query = .error fault ↔
    FirstFault (hydrate name) (db.find name query) fault :=
  mapM_eq_error_iff

/-- Count and search agree, for every filter, all joins and every hydrator. A count always has an
answer. A search succeeds exactly when the hydrator accepts every record that the filter admits,
after its joins are resolved; it then has as many items as the count says, and they are what the
hydrator makes of these records, in their order. Otherwise it fails as the hydrator does on the
first record that it turns down. Neither changes the database. -/
theorem fetch_iff_count (db : Database) (hydrate : Hydrator β ε) (name : String) (query : Query) :
    let rows := ((db.records name).filter query.filter.admits).map (db.resolve query.joins)
    (Command.count name query.filter).run db = (.number (db.count name query.filter), db) ∧
    (Command.find name query).run db = (.rows rows, db) ∧
    ((∃ items, db.fetch hydrate name query = .ok items) ↔
      ∀ row ∈ rows, ∃ item, hydrate name row = .ok item) ∧
    (∀ items, db.fetch hydrate name query = .ok items ↔
      items.length = db.count name query.filter ∧
        ∀ (i : Nat) (row : Document), rows[i]? = some row →
          ∃ item, items[i]? = some item ∧ hydrate name row = .ok item) ∧
    (∀ fault, db.fetch hydrate name query = .error fault ↔ ∃ front row back,
      rows = front ++ row :: back ∧ (∀ earlier ∈ front, ∃ item, hydrate name earlier = .ok item) ∧
        hydrate name row = .error fault) :=
  ⟨rfl, rfl, mapM_succeeds_iff, fun _ => fetch_eq_ok_iff, fun _ => fetch_eq_error_iff⟩

end DocumentStore.Database
