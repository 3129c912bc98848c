import DocumentStore.Proofs.Dataset.Loading
import DocumentStore.Proofs.Session.Step

/-!
# What a session leaves of its writes

A record has one source, the record that it was loaded from or the fields that it was created with.
At the end of a session it is its source with all fields merged into it that updates have written
to it, in order, and nothing else.

* `get?_run` follows a record that is there already, `get?_of_mem_created` one that is created;
* `records_run` lists a whole collection at the end of a session, by its sources;
* `load?_session` reads the records of that list field by field: of a field the latest value counts.
-/

namespace DocumentStore

variable {name : String} {id : Nat} {fields : Document} {entry : Command × Reply}

/-- Nothing is merged into a record by its own creation. -/
theorem merged?_of_created? {made : Document × Nat} (h : created? name entry = some made)
    (id : Nat) : merged? name id entry = none := by
  obtain ⟨command, reply⟩ := entry
  cases command with
  | create => rfl
  | update | find | count | load | records | names => cases h

/-- The sources of the records of a collection, each with the identifier that its record gets: the
records that the collection is loaded from, and behind them those that a session creates. -/
def Transcript.sources (transcript : Transcript) (data : Dataset) (name : String) :
    List (Document × Nat) :=
  Collection.numbered (data.records name) ++ transcript.created name

namespace Database

variable {db start : Database} {data : Dataset}

/-! ## One record -/

/-- A record that is there collects all fields that a session merges into it. -/
theorem get?_run (h : db.Consistent) (commands : List Command)
    (hget : (db.collection name).get? id = some (Collection.stored id fields)) :
    ((db.run commands).2.collection name).get? id = some (Collection.stored id
      (((db.transcript commands).merged name id).foldl Fields.merge fields)) := by
  induction commands generalizing db fields with
  | nil => exact hget
  | cons command rest ih =>
    have hstep := (Command.step db command name).get? (h.collection name) hget
    rw [run_cons, ih (h.run command) hstep, transcript_cons, Transcript.merged_cons,
      List.foldl_append]

/-- So does a record that is created in the session, since nothing can be merged into it before. -/
theorem get?_of_mem_created (h : db.Consistent) (commands : List Command)
    (hmem : (fields, id) ∈ (db.transcript commands).created name) :
    ((db.run commands).2.collection name).get? id = some (Collection.stored id
      (((db.transcript commands).merged name id).foldl Fields.merge fields)) := by
  induction commands generalizing db with
  | nil => cases hmem
  | cons command rest ih =>
    have hc := h.collection name
    have hstep := Command.step db command name
    rw [transcript_cons, Transcript.created_cons, List.mem_append, Option.mem_toList] at hmem
    rw [run_cons, transcript_cons, Transcript.merged_cons]
    rcases hmem with hnow | hlater
    · rw [merged?_of_created? hnow, get?_run (h.run command) rest (hstep.get?_of_created hc hnow)]
      rfl
    · have hnone : merged? name id (command, (command.run db).1) = none := by
        rw [Option.eq_none_iff_forall_not_mem]
        intro later hmerged
        -- the identifier would be in use before it is handed out
        have hbefore : id ∈ ((command.run db).2.collection name).ids := by
          rw [hstep.ids hc]
          exact List.mem_append_left _ (hstep.mem_ids_of_merged hc hmerged)
        have hafter := List.mem_map_of_mem (f := Prod.snd) hlater
        have hnodup := (((h.run command).session rest).collection name).nodup_ids
        rw [ids_run (h.run command)] at hnodup
        exact (List.nodup_append.1 hnodup).2.2 id hbefore id hafter rfl
      rw [hnone, ih (h.run command) hlater]
      rfl

/-! ## All records -/

/-- The identifiers at the end of a session are those of the sources. -/
theorem ids_sources (h : data.load = .ok start) (commands : List Command) (name : String) :
    ((start.run commands).2.collection name).ids =
      ((start.transcript commands).sources data name).map Prod.snd := by
  have hloaded := (Collection.records_ofRecords (Dataset.ofRecords_of_load h name)).2
  rw [ids_run (Reachable.load h).consistent, hloaded, Transcript.sources, List.map_append]

/-- Every source has become a record: itself with all fields that updates have written to it. -/
theorem get?_of_mem_sources (h : data.load = .ok start) (commands : List Command)
    (hmem : (fields, id) ∈ (start.transcript commands).sources data name) :
    ((start.run commands).2.collection name).get? id = some (Collection.stored id
      (((start.transcript commands).merged name id).foldl Fields.merge fields)) := by
  have hstart := (Reachable.load h).consistent
  rcases List.mem_append.1 hmem with hloaded | hcreated
  · have hc := hstart.collection name
    obtain ⟨hrecords, hids⟩ := Collection.records_ofRecords (Dataset.ofRecords_of_load h name)
    have hid : id ∈ (start.collection name).ids := by
      rw [hids]
      exact List.mem_map.2 ⟨_, hloaded, rfl⟩
    have hrecord : Collection.stored id fields ∈ (start.collection name).records := by
      rw [← Array.mem_toList_iff, hrecords]
      exact List.mem_map.2 ⟨_, hloaded, rfl⟩
    obtain ⟨h0, hlt⟩ := hc.bounds_of_mem_ids hid
    refine get?_run hstart commands (hc.get?_eq_some_iff.2 ⟨hrecord, ?_⟩)
    exact recordId?_stored h0 (Nat.le_of_lt hlt) fields
  · exact get?_of_mem_created hstart commands hcreated

/-- A collection at the end of a session, record by record. -/
theorem records_run (h : data.load = .ok start) (commands : List Command) (name : String) :
    (start.run commands).2.records name =
      ((start.transcript commands).sources data name).map fun source => Collection.stored source.2
        (((start.transcript commands).merged name source.2).foldl Fields.merge source.1) := by
  have hend := ((Reachable.load h).session commands).consistent.collection name
  have hlookups := hend.map_get?_ids
  rw [ids_sources h, List.map_map] at hlookups
  refine (List.map_inj_right fun _ _ => Option.some.inj).1 (hlookups.symm.trans ?_)
  rw [List.map_map]
  exact List.map_congr_left fun source hsource => get?_of_mem_sources h commands hsource

/-- No update is lost, and none is made up, in any session on a dataset that is loaded.

A collection holds its sources at the end, no two under one identifier, and nothing else can be
looked up. Under every spelling of its identifier a record is found with that identifier and, in
all other fields, the latest value that an update which found the record has written, an explicit
null included, or else the value in its source. A field is absent when neither of these ever
mentioned it. -/
theorem load?_session (h : data.load = .ok start) (commands : List Command) (name : String) :
    let transcript := start.transcript commands
    let final := (start.run commands).2
    let sources := transcript.sources data name
    final.records name = sources.map (fun source => Collection.stored source.2
      ((transcript.merged name source.2).foldl Fields.merge source.1)) ∧
    (sources.map Prod.snd).Nodup ∧
    (∀ (value : Value) (record : Document), final.load? name value = some record →
      ∃ fields id, (fields, id) ∈ sources ∧ coerceId value = some id) ∧
    ∀ (fields : Document) (id : Nat), (fields, id) ∈ sources →
      ∀ value : Value, coerceId value = some id → ∃ record,
        final.load? name value = some record ∧ record.get? idField = some (idValue id) ∧
        ∀ field : String, field ≠ idField →
          record.get? field =
            (Fields.latest? (transcript.merged name id) field).or (fields.get? field) ∧
          (record.get? field = none ↔ field ∉ fields.names ∧
            ∀ later ∈ transcript.merged name id, field ∉ later.names) := by
  intro transcript final sources
  have hend := ((Reachable.load h).session commands).consistent.collection name
  have hids : (final.collection name).ids = sources.map Prod.snd := ids_sources h commands name
  refine ⟨records_run h commands name, hids ▸ hend.nodup_ids, fun value record hload => ?_,
    fun fields id hmem value hvalue => ?_⟩
  · obtain ⟨id, hvalue, hget⟩ := Option.bind_eq_some_iff.1 hload
    have hid := Collection.mem_ids.2 ⟨record, hend.get?_eq_some_iff.1 hget⟩
    rw [hids] at hid
    obtain ⟨source, hmem, rfl⟩ := List.mem_map.1 hid
    exact ⟨source.1, source.2, hmem, hvalue⟩
  · have hget := get?_of_mem_sources h commands hmem
    refine ⟨_, by rw [load?, hvalue]; exact hget, ?_, fun field hfield => ?_⟩
    · rw [Collection.get?_stored, if_pos rfl]
    · rw [Collection.get?_stored, if_neg (Ne.symm hfield), Fields.get?_foldl_merge]
      refine ⟨rfl, ?_⟩
      rw [Option.or_eq_none_iff, Fields.latest?_eq_none_iff, Fields.get?_eq_none_iff, and_comm]

/-- Of three updates the first writes two fields of a loaded record, the second sets one of them to
null and tries to change the identifier, and the third finds no record. -/
theorem load?_session_null : ∃ start record,
    (Dataset.empty.add "A" [[("n", .int32 1), ("id", .string "2")]]).load = .ok start ∧
    (start.run [.update "A" (.int32 2) [("n", .int32 5), ("m", .int32 6)],
      .update "A" (.string "2") [("id", .int32 9), ("n", .null)],
      .update "A" (.int32 3) [("k", .null)]]).2.load? "A" (.int64 2) = some record ∧
    record.get? "id" = some (.int64 2) ∧ record.get? "n" = some .null ∧
    record.get? "m" = some (.int32 6) ∧ record.get? "k" = none := by
  have hmerged : ∃ start,
      (Dataset.empty.add "A" [[("n", .int32 1), ("id", .string "2")]]).load = .ok start ∧
      (start.transcript [.update "A" (.int32 2) [("n", .int32 5), ("m", .int32 6)],
        .update "A" (.string "2") [("id", .int32 9), ("n", .null)],
        .update "A" (.int32 3) [("k", .null)]]).merged "A" 2 =
      [[("n", .int32 5), ("m", .int32 6)], [("id", .int32 9), ("n", .null)]] := ⟨_, rfl, by rfl⟩
  obtain ⟨start, hload, hmerged⟩ := hmerged
  obtain ⟨record, hfound, hid, hfields⟩ := (load?_session hload _ "A").2.2.2
    [("n", .int32 1), ("id", .string "2")] 2 (List.mem_append_left _ List.mem_cons_self)
    (.int64 2) rfl
  rw [hmerged] at hfields
  exact ⟨start, record, hload, hfound, hid, (hfields "n" (by decide)).1,
    (hfields "m" (by decide)).1, (hfields "k" (by decide)).1⟩

end Database

end DocumentStore
