import DocumentStore.Proofs.Entity.Format
import DocumentStore.Proofs.Session.Identifiers

/-!
# Entities in a database

An entity that is stored comes back as it was, under the identifier that it got. Neither a create
nor an update keeps the identifier that the entity names itself, and both keep everything else, since
an entity writes all of its fields, the absent ones as null.

* `Described.hydrate_eq`: a record is read as an entity by its fields;
* `Answers` says that an entity is found, `answers_create` and `answers_update` after which writes;
* `keeps_entities` puts this together for content, locations and content types.
-/

namespace DocumentStore

namespace Described

variable {α : Type} [Entity α] [Described α] {entity : α}

/-- The fields of an entity, which make its record. -/
def record (entity : α) : Document := (idField, .int64 (id entity)) :: others entity

theorem nodup_names_record (entity : α) : (idField :: Fields.names (others entity : Document)).Nodup := by
  rw [names_others]
  exact nodup_names

theorem toRecord_eq (entity : α) : Entity.toRecord entity = .ok (record entity) := by
  unfold Entity.toRecord
  rw [write_eq]
  rfl

/-- A record with the fields of an entity is read as this entity, under the identifier of the
record. -/
theorem hydrate_eq {row : Document} {n : Nat} (hid : row.get? idField = some (idValue n))
    (hothers : ∀ name ∈ names α, row.get? name = Fields.get? (others entity) name) (name : String) :
    Hydrator.entity name row = .ok (withId entity (Int64.ofNat n)) := by
  have hread : Entity.read? (Value.document row) = some (withId entity (Int64.ofNat n)) := by
    apply read?_eq _ rfl
    · rw [id_withId]
      exact hid
    · intro field hfield
      rw [others_withId, hothers field hfield]
  rw [Hydrator.entity, Entity.read, hread]

/-- The stored form of a record has the same fields behind the identifier. -/
theorem get?_stored_of_mem_names (n : Nat) (row : Document) {name : String} (h : name ∈ names α) :
    (Collection.stored n row).get? name = row.get? name := by
  rw [Collection.get?_stored, if_neg (ne_of_mem_names h)]

theorem get?_stored_record (entity : α) (n : Nat) {name : String} (h : name ∈ names α) :
    Fields.get? (Collection.stored n (record entity)) name = Fields.get? (others entity) name := by
  rw [get?_stored_of_mem_names n _ h, record, Fields.get?_cons, if_neg (ne_of_mem_names h)]

/-- After a merge the fields are those of the entity that is merged, whatever stood there before. -/
theorem get?_stored_merge (entity : α) (n : Nat) (row : Document) {name : String}
    (h : name ∈ names α) :
    Fields.get? (Collection.stored n (row.merge ((record entity).without idField))) name =
      Fields.get? (others entity) name := by
  have hnodup := nodup_names_record entity
  have hmem : name ∈ Fields.names (others entity : Document) := by
    rw [names_others]
    exact h
  obtain ⟨value, hvalue⟩ := Option.ne_none_iff_exists'.1
    (mt Fields.get?_eq_none_iff.1 (not_not_intro hmem))
  rw [get?_stored_of_mem_names n _ h, record, Fields.without_cons_self hnodup,
    Fields.get?_merge_of_nodup (List.nodup_cons.1 hnodup).2, hvalue]
  rfl

end Described

namespace Database

variable {db next : Database} {α : Type} [Entity α] {id : Nat}

/-- Under every spelling of an identifier the database answers with one entity, to a lookup of the
identifier and to a search for it. -/
def Answers (db : Database) (id : Nat) (entity : α) : Prop :=
  ∀ value, coerceId value = some id →
    db.fetchOne Hydrator.entity (Entity.collection α) value = .ok (some entity) ∧
    db.fetch Hydrator.entity (Entity.collection α)
      (Query.ofFilter (Filter.matching idField value)) = .ok [entity]

/-- An entity is found where lookups find a record that is read as this entity. -/
theorem answers_of_load? (h : db.Reachable) {row : Document} {entity : α}
    (hload : ∀ value, coerceId value = some id → db.load? (Entity.collection α) value = some row)
    (hread : Hydrator.entity (Entity.collection α) row = .ok entity) : db.Answers id entity := by
  intro value hvalue
  have hfetch : db.fetchOne Hydrator.entity (Entity.collection α) value = .ok (some entity) := by
    rw [fetchOne, hload value hvalue]
    show (do return some (← Hydrator.entity (Entity.collection α) row)) = _
    rw [hread]
    rfl
  refine ⟨hfetch, ?_⟩
  rw [fetch_matching_id h, hfetch]
  rfl

/-- A create puts its record where the identifier leads to. -/
theorem get?_create (h : db.Consistent) {name : String} {fields : Document}
    (hcreate : db.create name fields = .ok (id, next)) :
    (next.collection name).get? id = some (Collection.stored id fields) := by
  obtain ⟨grown, hgrown, rfl⟩ := create_eq_ok_iff.1 hcreate
  rw [collection_put, if_pos rfl, (h.collection name).get?_create? hgrown, if_pos rfl]

variable [Described α]

/-- A created entity is found under the identifier that it got. -/
theorem answers_create (h : db.Reachable) (entity : α)
    (hcreate : db.create (Entity.collection α) (Described.record entity) = .ok (id, next)) :
    next.Answers id (Described.withId entity (Int64.ofNat id)) := by
  have hload : ∀ value, coerceId value = some id → next.load? (Entity.collection α) value =
      some (Collection.stored id (Described.record entity)) := by
    intro value hvalue
    rw [load?, hvalue]
    exact get?_create h.consistent hcreate
  refine answers_of_load? (h.create hcreate) hload (Described.hydrate_eq ?_ ?_ _)
  · rw [Collection.get?_stored, if_pos rfl]
  · intro name hname
    exact Described.get?_stored_record entity id hname

/-- Whatever stands under an identifier, an entity that is merged into it is found there. -/
theorem answers_update (h : db.Reachable) (entity : α) {value : Value}
    (hvalue : coerceId value = some id) (hid : id ∈ (db.collection (Entity.collection α)).ids) :
    ∃ last, db.update? (Entity.collection α) value (Described.record entity) = some last ∧
      last.Answers id (Described.withId entity (Int64.ofNat id)) := by
  obtain ⟨row, hrow, -⟩ := exists_load? h.consistent hvalue hid
  obtain ⟨last, hrun, hload⟩ := load?_update h.consistent hvalue hrow (Described.record entity)
  have hupdate := run_update_eq_iff.1 hrun
  refine ⟨last, hupdate, answers_of_load? (h.update? hupdate) hload (Described.hydrate_eq ?_ ?_ _)⟩
  · rw [Collection.get?_stored, if_pos rfl]
  · intro name hname
    exact Described.get?_stored_merge entity id row hname

/-! ## All types of entities -/

omit [Described α] in
/-- The entities of a type survive in the database: each has a record, and when it is created it is
found under the identifier that it got. Whatever happens afterwards, every other entity of the type
can be merged into this record, and is then found there. -/
def Keeps (db : Database) (α : Type) [Entity α] (withId : α → Int64 → α) : Prop :=
  ∀ entity : α, ∃ fields, Entity.toRecord entity = .ok fields ∧
    ∀ (id : Nat) (next : Database), db.create (Entity.collection α) fields = .ok (id, next) →
      next.Answers id (withId entity (Int64.ofNat id)) ∧
      ∀ (commands : List Command) (later : α), ∃ changes, Entity.toRecord later = .ok changes ∧
        ∀ value, coerceId value = some id → ∃ last,
          (next.run commands).2.update? (Entity.collection α) value changes = some last ∧
          last.Answers id (withId later (Int64.ofNat id))

theorem keeps_described (h : db.Reachable) (α : Type) [Entity α] [Described α] :
    db.Keeps α Described.withId := by
  intro entity
  refine ⟨_, Described.toRecord_eq entity, fun id next hcreate => ⟨answers_create h entity hcreate, ?_⟩⟩
  intro commands later
  refine ⟨_, Described.toRecord_eq later, fun value hvalue => ?_⟩
  have hnext : next.Reachable := h.create hcreate
  have hc := (hnext.consistent.collection (Entity.collection α)).toIndexed
  have hcreated := get?_create h.consistent hcreate
  -- a session loses no identifier, so the created one is still there
  have hid : id ∈ ((next.run commands).2.collection (Entity.collection α)).ids := by
    rw [ids_run hnext.consistent]
    apply List.mem_append_left
    by_contra hnot
    rw [hc.get?_eq_none_iff.2 hnot] at hcreated
    contradiction
  exact answers_update (hnext.session commands) later hvalue hid

/-- Content, locations and content types survive in every reachable database. -/
theorem keeps_entities (h : db.Reachable) :
    db.Keeps Content (fun content id => { content with id := id }) ∧
    db.Keeps Location (fun location id => { location with id := id }) ∧
    db.Keeps ContentType (fun type id => { type with id := id }) :=
  ⟨keeps_described h Content, keeps_described h Location, keeps_described h ContentType⟩

/-- Content without a name whose location names an identifier of its own: both come back, and so does
the name that an update adds, while the owner and the locations that it drops are gone. -/
theorem keeps_entities_content : ∃ next last,
    empty.create "Content" [("id", .int64 99), ("name", .null), ("ownerId", .int64 7),
      ("locations", .array [.document [("id", .int64 5), ("contentId", .int64 99),
        ("parentId", .null)]])] = .ok (1, next) ∧
    next.Answers 1 (Content.mk 1 none (some 7) [⟨5, 99, none⟩]) ∧
    next.update? "Content" (.string " 1.0 ") [("id", .int64 0), ("name", .string "Home"),
      ("ownerId", .null), ("locations", .array [])] = some last ∧
    last.Answers 1 (Content.mk 1 (some "Home") none []) := by
  obtain ⟨fields, hfields, hkept⟩ :=
    (keeps_entities .empty).1 (Content.mk 99 none (some 7) [⟨5, 99, none⟩])
  cases hfields
  obtain ⟨hanswers, hlater⟩ := hkept 1 _ rfl
  obtain ⟨changes, hchanges, hupdated⟩ := hlater [] (Content.mk 0 (some "Home") none [])
  cases hchanges
  obtain ⟨last, hupdate, hlast⟩ := hupdated (.string " 1.0 ") (by decide +kernel)
  exact ⟨_, last, rfl, hanswers, hupdate, hlast⟩

end Database

end DocumentStore
