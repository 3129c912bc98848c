import DocumentStore.Proofs.Database.Lookup
import DocumentStore.Proofs.Fields
import Mathlib.Data.List.Nodup

/-!
# What joins add to a record

Resolving joins sets their attributes and does nothing else to a record: all other fields keep
their values and their order. The same holds of every row that is attached, at every depth.

* `get?_resolve` and `withoutAll_resolve`: the fields that are not set are as they were;
* `Join.Fills` is the form of what a join puts under its attribute, by recursion on the tree of
  joins, and `fills_rows` is one induction over that tree;
* `find_expands`: what a search finds with joins, record by record, against what it finds without.
-/

namespace DocumentStore

/-! ## What stands under an attribute -/

mutual

/-- Whether a value has the form of what a join puts under its attribute. It is an array of
documents, which stand for records of the collection of the join: the records are taken in their
order and none of them twice, and each document is its record but for the attributes of the nested
joins, all of which are filled in turn. -/
def Join.Fills (db : Database) : Join → Value → Prop
  | ⟨collection, _, joins⟩, value => ∃ sources rows : List Document,
    value = .array (rows.map .document) ∧
    sources.Sublist (db.records collection) ∧ (sources.map recordId?).Nodup ∧
    List.Forall₂ (fun source row =>
      Fields.withoutAll row (Fields.names joins) = Fields.withoutAll source (Fields.names joins) ∧
        Join.AllFill db joins row) sources rows

/-- Whether all attributes of some joins are filled in a row. Where an attribute is given twice, the
last join given for it counts. -/
def Join.AllFill (db : Database) : List (String × Join) → Document → Prop
  | [], _ => True
  | (attr, join) :: rest, row =>
    (attr ∉ Fields.names rest →
      ∃ value, Fields.get? row attr = some value ∧ Join.Fills db join value) ∧
    Join.AllFill db rest row

end

/-- A row is a record that has been expanded by joins: without their attributes both are the same,
field by field and in order, and the row has all these attributes filled. -/
def Database.Expands (db : Database) (joins : Joins) (record row : Document) : Prop :=
  row.withoutAll joins.names = record.withoutAll joins.names ∧ Join.AllFill db joins row

namespace Database

variable {db : Database} {joins : List (String × Join)}

/-! ## What is left alone -/

/-- Joins change no field but those that they fill. -/
theorem get?_resolve (db : Database) {joins : List (String × Join)} {field : String}
    (h : field ∉ Fields.names joins) (row : Document) :
    (db.resolve joins row).get? field = row.get? field := by
  induction joins generalizing row with
  | nil => rw [resolve]
  | cons entry rest ih =>
    obtain ⟨attr, join⟩ := entry
    rw [Fields.names_cons, List.mem_cons, not_or] at h
    rw [resolve, ih h.2, Fields.get?_insert, if_neg (Ne.symm h.1)]

/-- Leaving out the attributes that are set, and maybe others, leads back to the record. -/
theorem withoutAll_resolve (db : Database) {names : List String}
    (h : ∀ attr ∈ Fields.names joins, attr ∈ names) (record : Document) :
    (db.resolve joins record).withoutAll names = record.withoutAll names := by
  induction joins generalizing record with
  | nil => rw [resolve]
  | cons entry rest ih =>
    obtain ⟨attr, join⟩ := entry
    rw [Fields.names_cons, List.forall_mem_cons] at h
    rw [resolve, ih h.2, Fields.withoutAll_insert h.1]

/-! ## What is filled in -/

/-- No two records of a collection share an identifier. -/
theorem nodup_recordIds (h : db.Consistent) (name : String) :
    ((db.records name).map recordId?).Nodup := by
  have hc := (h.collection name).toIndexed
  rw [records, hc.map_recordId?]
  exact hc.nodup_ids.map fun _ _ => Option.some.inj

mutual

/-- The rows of a join fill its attribute. -/
theorem fills_rows (h : db.Consistent) : ∀ (join : Join) (source : Document),
    Join.Fills db join (.array ((db.rows join source).map .document))
  | ⟨collection, pairs, joins⟩, source => by
    have hsub : (db.select collection (Join.filterFor ⟨collection, pairs, joins⟩ source)).Sublist
        (db.records collection) := List.filter_sublist
    rw [rows]
    refine ⟨_, _, rfl, hsub, (nodup_recordIds h collection).sublist (hsub.map _), ?_⟩
    rw [List.forall₂_map_right_iff]
    exact List.forall₂_same.2 fun row _ =>
      ⟨withoutAll_resolve db (fun _ hattr => hattr) row, allFill_resolve h joins row⟩

/-- Resolving joins fills all their attributes. -/
theorem allFill_resolve (h : db.Consistent) : ∀ (joins : List (String × Join)) (record : Document),
    Join.AllFill db joins (db.resolve joins record)
  | [], _ => trivial
  | (attr, join) :: rest, record => by
    rw [resolve]
    refine ⟨fun hattr => ⟨_, ?_, fills_rows h join record⟩, allFill_resolve h rest _⟩
    -- no later join sets this attribute, so it stays as it is set here
    rw [get?_resolve db hattr, Fields.get?_insert, if_pos rfl]

end

theorem expands_resolve (h : db.Consistent) (joins : Joins) (record : Document) :
    db.Expands joins record (db.resolve joins record) :=
  ⟨withoutAll_resolve db (fun _ hattr => hattr) record, allFill_resolve h joins record⟩

/-- Under an attribute that is filled there is an array of documents. -/
theorem exists_rows_of_allFill {row : Document} (h : Join.AllFill db joins row) {attr : String}
    (hattr : attr ∈ Fields.names joins) :
    ∃ rows : List Document, row.get? attr = some (.array (rows.map .document)) := by
  induction joins with
  | nil => cases hattr
  | cons entry rest ih =>
    obtain ⟨first, ⟨collection, pairs, nested⟩⟩ := entry
    obtain ⟨hfirst, hrest⟩ := h
    by_cases hlater : attr ∈ Fields.names rest
    · exact ih hrest hlater
    · rw [Fields.names_cons, List.mem_cons, or_iff_left hlater] at hattr
      subst hattr
      obtain ⟨value, hvalue, sources, rows, rfl, -⟩ := hfirst hlater
      exact ⟨rows, hvalue⟩

/-- Joins only add their attributes. A search with joins finds as many records as the search
without them, which finds the stored records that the filter admits. The records that it finds are
these, one by one and in order, expanded by the joins; in particular each of them has an array of
documents under every attribute. -/
theorem find_expands (h : db.Reachable) (name : String) (query : Query) :
    let plain := db.find name (Query.ofFilter query.filter)
    let found := db.find name query
    plain = (db.records name).filter query.filter.admits ∧
    found.length = plain.length ∧
    List.Forall₂ (db.Expands query.joins) plain found ∧
    ∀ row ∈ found, ∀ attr ∈ Fields.names query.joins,
      ∃ rows : List Document, row.get? attr = some (.array (rows.map .document)) := by
  intro plain found
  have hplain : plain = db.select name query.filter := find_ofFilter db name query.filter
  have hfound : found = plain.map (db.resolve query.joins) := by rw [hplain]; rfl
  refine ⟨hplain, by rw [hfound, List.length_map], ?_, fun row hrow attr hattr => ?_⟩
  · rw [hfound, List.forall₂_map_right_iff]
    exact List.forall₂_same.2 fun record _ => expands_resolve h.consistent query.joins record
  · rw [hfound] at hrow
    obtain ⟨record, -, rfl⟩ := List.mem_map.1 hrow
    exact exists_rows_of_allFill (allFill_resolve h.consistent query.joins record) hattr

/-- A collection is joined to itself under the name of a stored field, which is the source of the
join, and a nested join fills another attribute of the row. -/
theorem find_expands_shadowed : ∃ (db : Database) (joins : Joins) (row : Document),
    db = ((Command.create "A" [("up", .int64 1), ("n", .null)]).run empty).2 ∧
    joins = [("up", ((Join.ofCollection "A").pair "id" "up").nest "all" (Join.ofCollection "A"))] ∧
    row = [("id", .int64 1), ("up", .array [.document [("id", .int64 1), ("up", .int64 1),
      ("n", .null), ("all", .array [.document [("id", .int64 1), ("up", .int64 1),
        ("n", .null)]])]]), ("n", .null)] ∧
    db.Reachable ∧ db.find "A" ⟨Filter.empty, joins⟩ = [row] ∧
    db.Expands joins [("id", .int64 1), ("up", .int64 1), ("n", .null)] row := by
  refine ⟨_, _, _, rfl, rfl, rfl, .run _ .empty, rfl, ?_⟩
  have hfound := (find_expands (.run (.create "A" [("up", .int64 1), ("n", .null)]) .empty) "A"
    ⟨Filter.empty, [("up", ((Join.ofCollection "A").pair "id" "up").nest "all"
      (Join.ofCollection "A"))]⟩).2.2.1
  exact (List.forall₂_cons.1 hfound).1

end Database

end DocumentStore
