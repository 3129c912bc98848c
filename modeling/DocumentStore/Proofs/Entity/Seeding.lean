import DocumentStore.Proofs.Database.Fetch
import DocumentStore.Proofs.Dataset.Building
import DocumentStore.Proofs.Entity.Conversion
import DocumentStore.Proofs.Entity.Storing
import DocumentStore.Proofs.Filter.Selection
import DocumentStore.Proofs.Session.History

/-!
# Entities from JSON

A JSON value leads to an entity in three ways: it is read as one, or it is converted into a record
first, or this record is stored in a new database and read from there. All three agree.

* `get?_of_mem_numbered`: what is supplied is found in the database that is built;
* `ReadByField.hydrate_stored`: what is found there is read as the entity;
* `routes_agree` puts this together for content, locations and content types.
-/

namespace DocumentStore

/-- The value is an object in which the item stands in the array of the given name. -/
def Json.Lists (seed : Json) (name : String) (item : Json) : Prop :=
  ∃ members items, seed = .object members ∧ (name, Json.array items) ∈ members ∧ item ∈ items

/-- Every record of a list gets an identifier when it is loaded. -/
theorem Collection.exists_mem_numbered {records : List Document} {record : Document}
    (h : record ∈ records) : ∃ id, (record, id) ∈ numbered records := by
  cases hid : recordId? record with
  | some id =>
    refine ⟨id, List.mem_append_left _ (List.mem_filterMap.2 ⟨record, h, ?_⟩)⟩
    rw [hid]
    rfl
  | none =>
    have hmem : record ∈ ((unidentified records).zipIdx (largestId records + 1)).map Prod.fst := by
      rw [List.zipIdx_map_fst]
      exact List.mem_filter.2 ⟨h, by rw [hid]; rfl⟩
    obtain ⟨⟨_, id⟩, hnumbered, rfl⟩ := List.mem_map.1 hmem
    exact ⟨id, List.mem_append_right _ hnumbered⟩

namespace Supply

variable {supply : Supply} {name : String} {record : Document}

/-- The record of an item is supplied by every JSON value that lists the item. -/
theorem mem_supplied_of_lists {seed item : Json} (hseed : seed ∈ supply.values)
    (h : seed.Lists name item) (hrecord : item.toRecord = .ok record) :
    record ∈ supply.supplied name := by
  obtain ⟨members, items, rfl, hmember, hitem⟩ := h
  have hlisted : record ∈ (Json.array items).records := by
    refine List.mem_filterMap.2 ⟨item, hitem, ?_⟩
    rw [hrecord]
    rfl
  have hentry : (name, (Json.array items).records) ∈ (Json.object members).entries :=
    List.mem_map.2 ⟨_, hmember, rfl⟩
  have hconcat : record ∈ (Json.object members).entries.concatAt name := by
    refine List.mem_flatMap.2 ⟨_, hentry, ?_⟩
    rw [if_pos rfl]
    exact hlisted
  exact List.mem_append_right _ (List.mem_flatMap.2 ⟨_, hseed, hconcat⟩)

/-- A record that is supplied is stored under its number. -/
theorem get?_of_mem_numbered {db : Database} {id : Nat} (h : supply.build = .ok db)
    (hmem : (record, id) ∈ Collection.numbered (supply.supplied name)) :
    (db.collection name).get? id = some (Collection.stored id record) := by
  have hload := h
  rw [build_of_isDataset (build_succeeds_iff.1 ⟨db, h⟩).1] at hload
  rw [← records_total] at hmem
  exact Database.get?_of_mem_sources hload [] (List.mem_append_left _ hmem)

end Supply

theorem Entity.read_eq_ok_iff {α φ : Type} [Entity α] [Format φ] {data : φ} {entity : α} :
    Entity.read data = .ok entity ↔ Entity.read? data = some entity := by
  unfold Entity.read
  cases (Entity.read? data : Option α) <;> simp

/-! ## Reading what is stored -/

section

variable {α : Type} [Entity α] [Described α] [ReadByField α] {json : Json} {record : Document}
  {entity : α} {id : Nat} {db : Database}

/-- The record that is stored for a JSON value is read as the entity that is read from it, under the
identifier of the record. -/
theorem ReadByField.hydrate_stored (hread : Entity.read? json = some entity)
    (h : json.toRecord = .ok record) (n : Nat) (name : String) :
    Hydrator.entity name (Collection.stored n record) =
      .ok (Described.withId entity (Int64.ofNat n)) := by
  have hvalue : json.StandsFor (.document record) := Json.Extension.toRecord_eq_ok_iff.1 h
  obtain ⟨others, hothers, -, hrow⟩ := exists_fields hread hvalue
  obtain rfl := Option.some.inj hothers
  have hid : (Collection.stored n record).get? idField = some (idValue n) := by
    rw [Collection.get?_stored, if_pos rfl]
  have hfields : ∀ field ∈ Described.names α,
      (Collection.stored n record).get? field = record.get? field := fun field hfield =>
    Described.get?_stored_of_mem_names n record hfield
  have hstored : Entity.read? (Value.document (Collection.stored n record)) =
      some (Described.withId entity (Int64.ofNat n)) := by
    rw [read?_of_fields? rfl hid, hrow _ _ hfields]
  exact Entity.read_eq_ok_iff.2 hstored

/-- A database answers with the entities of the records that it holds. -/
theorem Database.answers_of_get? (h : db.Reachable) (hread : Entity.read? json = some entity)
    (hrecord : json.toRecord = .ok record)
    (hget : (db.collection (Entity.collection α)).get? id = some (Collection.stored id record)) :
    db.Answers id (Described.withId entity (Int64.ofNat id)) := by
  have hload : ∀ value, coerceId value = some id → db.load? (Entity.collection α) value =
      some (Collection.stored id record) := by
    intro value hvalue
    rw [load?, hvalue]
    exact hget
  exact answers_of_load? h hload (ReadByField.hydrate_stored hread hrecord id _)

/-- Every search that admits the record finds the entity, if it finds entities only. -/
theorem Database.mem_fetch_of_get? (h : db.Reachable) (hread : Entity.read? json = some entity)
    (hrecord : json.toRecord = .ok record)
    (hget : (db.collection (Entity.collection α)).get? id = some (Collection.stored id record))
    {filter : Filter} {items : List α} (hadmits : filter.admits (Collection.stored id record))
    (hfetch : db.fetch Hydrator.entity (Entity.collection α) (Query.ofFilter filter) = .ok items) :
    Described.withId entity (Int64.ofNat id) ∈ items := by
  have hmem := ((h.consistent.collection _).get?_eq_some_iff.1 hget).1
  have hfound : Collection.stored id record ∈
      db.find (Entity.collection α) (Query.ofFilter filter) :=
    mem_find_ofFilter.2 ⟨Array.mem_toList_iff.2 hmem, hadmits⟩
  obtain ⟨place, hplace⟩ := List.mem_iff_getElem?.1 hfound
  obtain ⟨item, hitem, hok⟩ := (fetch_eq_ok_iff.1 hfetch).2 place _ hplace
  rw [ReadByField.hydrate_stored hread hrecord] at hok
  exact Except.ok.inj hok ▸ List.mem_of_getElem? hitem

end

/-! ## All types of entities -/

/-- The ways to the entities of a type agree. What is read from a JSON value is read from its record.
When this record is supplied for a new database, as it is by every JSON value that lists the first one,
it gets an identifier, and the database answers with the entity under this identifier, as does every
search that admits the record and finds entities only. In both formats an entity is read as it was
written. -/
def RoutesAgree (α : Type) [Entity α] (withId : α → Int64 → α) : Prop :=
  (∀ (json : Json) (entity : α) (record : Document),
    Entity.read json = .ok entity → json.toRecord = .ok record →
    Entity.read (Value.document record) = .ok entity ∧
    ∀ (supply : Supply) (db : Database), supply.build = .ok db →
      let supplied := supply.supplied (Entity.collection α)
      (∀ seed ∈ supply.values, seed.Lists (Entity.collection α) json → record ∈ supplied) ∧
      (record ∈ supplied → ∃ id, (record, id) ∈ Collection.numbered supplied) ∧
      ∀ id, (record, id) ∈ Collection.numbered supplied →
        db.Answers id (withId entity (Int64.ofNat id)) ∧
        ∀ (filter : Filter) (items : List α), filter.admits (Collection.stored id record) →
          db.fetch Hydrator.entity (Entity.collection α) (Query.ofFilter filter) = .ok items →
            withId entity (Int64.ofNat id) ∈ items) ∧
  ∀ entity : α, Entity.read (Entity.write entity : Json) = .ok entity ∧
    Entity.read (Entity.write entity : Value) = .ok entity

theorem routesAgree_readByField (α : Type) [Entity α] [Described α] [ReadByField α] :
    RoutesAgree α Described.withId := by
  refine ⟨fun json entity record hjson hrecord => ?_, fun entity => ⟨?_, ?_⟩⟩
  · have hread := Entity.read_eq_ok_iff.1 hjson
    have hvalue : json.StandsFor (.document record) := Json.Extension.toRecord_eq_ok_iff.1 hrecord
    refine ⟨Entity.read_eq_ok_iff.2 (ReadByField.carries hvalue hread), fun supply db hbuild => ?_⟩
    refine ⟨fun seed hseed hlists => Supply.mem_supplied_of_lists hseed hlists hrecord,
      Collection.exists_mem_numbered, fun id hid => ?_⟩
    have hreach : db.Reachable := .build hbuild
    have hget := Supply.get?_of_mem_numbered hbuild hid
    exact ⟨Database.answers_of_get? hreach hread hrecord hget,
      fun filter items => Database.mem_fetch_of_get? hreach hread hrecord hget⟩
  · exact Entity.read_eq_ok_iff.2 (Described.read?_write entity)
  · exact Entity.read_eq_ok_iff.2 (Described.read?_write entity)

/-- For content, locations and content types it makes no difference which way is taken. -/
theorem routes_agree :
    RoutesAgree Content (fun content id => { content with id := id }) ∧
    RoutesAgree Location (fun location id => { location with id := id }) ∧
    RoutesAgree ContentType (fun type id => { type with id := id }) :=
  ⟨routesAgree_readByField Content, routesAgree_readByField Location,
    routesAgree_readByField ContentType⟩

/-- Content with two members that it does not know, one of them an object that denotes a symbol, without
an owner, and with one location in the form of a list. Its identifier is not accepted, so that it gets
one when it is loaded. -/
theorem routes_agree_numbered : ∃ (json : Json) (record : Document) (db : Database),
    json = .object [("extra", .object [("$symbol", .string "a")]), ("id", .integer (-3)),
      ("locations", .array [.array [.integer 5, .integer 7, .null],
        .object [("contentId", .integer 7), ("id", .integer 6), ("note", .boolean true)]]),
      ("name", .null)] ∧
    json.toRecord = .ok record ∧ record.get? "extra" = some (.atom (.symbol "a")) ∧
    Entity.read (Value.document record) = .ok (Content.mk (-3) none none [⟨5, 7, none⟩, ⟨6, 7, none⟩]) ∧
    Supply.build ⟨.empty, [.object [("Content", .array [json])]]⟩ = .ok db ∧
    db.Answers 1 (Content.mk 1 none none [⟨5, 7, none⟩, ⟨6, 7, none⟩]) := by
  let json : Json := .object [("extra", .object [("$symbol", .string "a")]), ("id", .integer (-3)),
    ("locations", .array [.array [.integer 5, .integer 7, .null],
      .object [("contentId", .integer 7), ("id", .integer 6), ("note", .boolean true)]]),
    ("name", .null)]
  let record : Document := [("extra", .atom (.symbol "a")), ("id", .int64 (-3)),
    ("locations", .array [.array [.int64 5, .int64 7, .null],
      .document [("contentId", .int64 7), ("id", .int64 6), ("note", .boolean true)]]),
    ("name", .null)]
  have hread : Entity.read json = .ok (Content.mk (-3) none none [⟨5, 7, none⟩, ⟨6, 7, none⟩]) := rfl
  have hrecord : json.toRecord = .ok record := rfl
  obtain ⟨hvalue, hstored⟩ := routes_agree.1.1 json _ record hread hrecord
  obtain ⟨db, hbuild⟩ : ∃ db, Supply.build ⟨.empty, [.object [("Content", .array [json])]]⟩ = .ok db :=
    ⟨_, rfl⟩
  obtain ⟨-, -, hanswers⟩ := hstored _ db hbuild
  have hnumbered : Collection.numbered [record] = [(record, 1)] := rfl
  have hid : (record, 1) ∈ Collection.numbered [record] := hnumbered ▸ List.mem_cons_self
  exact ⟨json, record, db, rfl, hrecord, rfl, hvalue, hbuild, (hanswers 1 hid).1⟩

end DocumentStore
