import DocumentStore.Proofs.Session.Effect
import Mathlib.Data.List.Nodup

/-!
# Updates of one record

Two updates of a record are one update by the fields of both, and an update that is repeated changes
nothing more. `update_composes` says this of databases as a whole, and says besides what an update
leaves alone: everything but one record, which keeps its place.
-/

namespace DocumentStore

namespace Collection.Indexed

variable {c : Collection} {id : Nat} {record : Document}

/-- Of all records of a collection an update revises the one that it finds. -/
theorem map_revise (h : c.Indexed) (hget : c.get? id = some record) (fields : Document) :
    ∃ front back, c.records.toList = front ++ record :: back ∧
      c.records.toList.map (revise (some id) fields) =
        front ++ record.merge (fields.without idField) :: back := by
  obtain ⟨hmem, hid⟩ := h.get?_eq_some_iff.1 hget
  obtain ⟨front, back, hsplit⟩ := List.append_of_mem (Array.mem_toList_iff.2 hmem)
  have hnodup := h.nodup_ids
  rw [ids, hsplit, List.filterMap_append, List.filterMap_cons_some hid, List.nodup_middle,
    List.nodup_cons, ← List.filterMap_append] at hnodup
  have hothers : ∀ other ∈ front ++ back, revise (some id) fields other = other :=
    fun other hother => revise_of_ne
      (fun heq => hnodup.1 (List.mem_filterMap.2 ⟨other, hother, heq⟩)) fields
  rw [List.forall_mem_append] at hothers
  refine ⟨front, back, hsplit, ?_⟩
  rw [hsplit, List.map_append, List.map_cons, List.map_congr_left hothers.1,
    List.map_congr_left hothers.2, List.map_id', List.map_id', revise, if_pos hid]

end Collection.Indexed

namespace Database

variable {db next : Database}

/-- Two updates under one identifier are one update by the fields of both. -/
theorem run_update_update (h : db.Consistent) (name : String) (value : Value) {fields : Document}
    (hfields : fields.names.Nodup) (later : Document) :
    ((Command.update name value later).run ((Command.update name value fields).run db).2).2 =
      ((Command.update name value (fields.merge later)).run db).2 := by
  have honce := h.run (.update name value fields)
  refine (honce.run _).ext_records (h.run _) (fun other => ?_) fun other => ?_
  · simp only [mem_names_run, Command.creates, Bool.false_eq_true, false_or]
  · rw [records_update honce, records_update h, records_update h]
    split
    · rw [List.map_map]
      exact List.map_congr_left fun record _ => revise_revise hfields _ later record
    · rfl

theorem run_update_of_none {name : String} {value : Value} {fields : Document}
    (hu : db.update? name value fields = none) :
    (Command.update name value fields).run db = (.updated false, db) := by
  rw [Command.run, hu]

/-- One database is the other but for one record, that of the named collection which carries the given
identifier: fields have been merged into it, except for the identifier. -/
structure Revises (db next : Database) (name : String) (value : Value) (fields : Document) : Prop where
  /-- No name has come or gone. -/
  names_eq : next.names = db.names
  /-- All other collections are as they were. -/
  others_eq : ∀ other, other ≠ name → next.collections[other]? = db.collections[other]?
  /-- All identifiers are found at the places where they were. -/
  positions_eq : (next.collection name).positions = (db.collection name).positions
  /-- The sequence stands where it stood. -/
  nextId_eq : (next.collection name).nextId = (db.collection name).nextId
  /-- Of the records one has changed, in its place. -/
  records_eq : ∃ front record back, recordId? record = coerceId value ∧
    db.records name = front ++ record :: back ∧
    next.records name = front ++ record.merge (fields.without idField) :: back

theorem revises_of_update? (h : db.Consistent) {name : String} {value : Value} {fields : Document}
    (hu : db.update? name value fields = some next) : Revises db next name value fields := by
  have hrun := run_update_eq_iff.2 hu
  have hnames (other : String) : other ∈ next.names ↔ other ∈ db.names := by
    have hmem := mem_names_run db (.update name value fields) other
    rw [hrun] at hmem
    exact hmem.trans (or_iff_right Bool.false_ne_true)
  have hrecords := records_update h name value fields name
  rw [hrun, if_pos rfl] at hrecords
  obtain ⟨id, changed, hid, hchanged, rfl⟩ := update?_eq_some_iff.1 hu
  obtain ⟨record, hget, hr⟩ := Collection.update?_eq_some_iff.1 hchanged
  obtain ⟨front, back, hsplit, hrevised⟩ := (h.collection name).map_revise hget fields
  obtain ⟨position, -, rfl⟩ := Collection.replace?_eq_some_iff.1 hr
  refine ⟨names_eq_of_mem_iff hnames, fun other hother => ?_, ?_, ?_, front, record, back, ?_, hsplit,
    ?_⟩
  · rw [getElem?_collections, getElem?_collections, collection_put, if_neg (Ne.symm hother)]
    simp only [hnames]
  · rw [collection_put, if_pos rfl]
  · rw [collection_put, if_pos rfl]
  · rw [hid, ((h.collection name).get?_eq_some_iff.1 hget).2]
  · rw [hrecords, hid]
    exact hrevised

/-- Updates of one record compose. An update by some fields and another by later fields leave the same
database, in every respect, as the one update by the fields into which the later ones are merged, and all
of them have the same reply; an update that is done again changes nothing.

An update that finds no record changes nothing. An update that finds one merges its fields, but for the
identifier, into this record in its place. It leaves alone all other records and their places, the
sequence and the names and contents of all other collections. -/
theorem update_composes (h : db.Reachable) (name : String) (value : Value) (fields : Document) :
    let update := Command.update name value
    let once := (update fields).run db
    (fields.names.Nodup → ∀ later : Document,
      (update later).run once.2 = (update (fields.merge later)).run db ∧
      once.1 = ((update (fields.merge later)).run db).1) ∧
    (fields.names.Nodup → (update fields).run once.2 = once) ∧
    (once = (.updated false, db) ∨
      once.1 = .updated true ∧ Revises db once.2 name value fields) := by
  intro update once
  have hc := h.consistent
  have hcompose (hfields : fields.names.Nodup) (later : Document) :
      (update later).run once.2 = (update (fields.merge later)).run db :=
    Prod.ext (reply_update_run_update hc name name value value fields later _)
      (run_update_update hc name value hfields later)
  have hreply (later : Document) : once.1 = ((update later).run db).1 := by
    rw [reply_update hc, reply_update hc]
  refine ⟨fun hfields later => ⟨hcompose hfields later, hreply _⟩, fun hfields => ?_, ?_⟩
  · have htwice := hcompose hfields fields
    rwa [Fields.merge_self hfields] at htwice
  · cases hu : db.update? name value fields with
    | none => exact .inl (run_update_of_none hu)
    | some next =>
      have honce : once = (.updated true, next) := run_update_eq_iff.2 hu
      rw [honce]
      exact .inr ⟨rfl, revises_of_update? hc hu⟩

/-- The second of two records is updated twice under a text for its identifier: a field is set to null
and then overwritten, new fields come to the end, and other identifiers are passed over. -/
theorem update_composes_overlapping : ∃ start once twice : Database,
    start = (empty.run [.create "A" [("n", .int32 1)],
      .create "A" [("k", .null), ("n", .int32 2)]]).2 ∧
    (Command.update "A" (.string "2.0") [("id", .int32 1), ("n", .null), ("x", .int32 3)]).run start =
      (.updated true, once) ∧
    (Command.update "A" (.string "2.0") [("y", .null), ("n", .int32 4), ("id", .null)]).run once =
      (.updated true, twice) ∧
    (Command.update "A" (.string "2.0") [("id", .null), ("n", .int32 4), ("x", .int32 3),
      ("y", .null)]).run start = (.updated true, twice) ∧
    twice.records "A" = [[("id", .int64 1), ("n", .int32 1)],
      [("id", .int64 2), ("k", .null), ("n", .int32 4), ("x", .int32 3), ("y", .null)]] ∧
    once.names = ["A"] ∧ (once.collection "A").nextId = 3 := by
  let start := (empty.run [.create "A" [("n", .int32 1)],
    .create "A" [("k", .null), ("n", .int32 2)]]).2
  have hreach : start.Reachable := Reachable.session .empty _
  have hid : coerceId (.string "2.0") = some 2 := by decide +kernel
  have hmerged : Fields.merge [("id", .int32 1), ("n", .null), ("x", .int32 3)]
      [("y", .null), ("n", .int32 4), ("id", .null)] =
      [("id", Value.null), ("n", .int32 4), ("x", .int32 3), ("y", .null)] := rfl
  obtain ⟨hcompose, -, hframe⟩ := update_composes hreach "A" (.string "2.0")
    [("id", .int32 1), ("n", .null), ("x", .int32 3)]
  obtain ⟨htwice, hsame⟩ := hcompose (by decide) [("y", .null), ("n", .int32 4), ("id", .null)]
  rw [hmerged] at htwice hsame
  have hreply : ((Command.update "A" (.string "2.0")
      [("id", .int32 1), ("n", .null), ("x", .int32 3)]).run start).1 = .updated true := by
    rw [reply_update hreach.consistent, hid]
    rfl
  have hrecords := records_update hreach.consistent "A" (.string "2.0")
    [("id", .null), ("n", .int32 4), ("x", .int32 3), ("y", .null)] "A"
  rw [if_pos rfl, hid] at hrecords
  have hpair {result : Reply × Database} (h : result.1 = .updated true) :
      result = (.updated true, result.2) := Prod.ext h rfl
  have hsingle := hpair (hsame.symm.trans hreply)
  obtain hmissed | ⟨-, hrevises⟩ := hframe
  · rw [hmissed] at hreply
    cases hreply
  · exact ⟨start, _, _, rfl, hpair hreply, htwice.trans hsingle, hsingle, hrecords,
      hrevises.names_eq, hrevises.nextId_eq⟩

end Database

end DocumentStore
