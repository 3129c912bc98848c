import DocumentStore.Proofs.Session.Step

/-!
# The identifiers that a session hands out

Each collection hands out its identifiers one after the other, whatever happens in the others, and
stops before the largest integer.

* `numbers_created_run`: the identifiers that are handed out, by the number of the creates alone;
* `failed_iff`: a create fails at the end of the sequence, and nothing else ever fails;
* `served_of_mem_ids`: stored records can be found and updated, wherever the sequence stands;
* `ids_session` puts this together for every moment of a session.
-/

namespace DocumentStore

/-- The identifier that a reply tells. -/
def Reply.id? : Reply → Option Nat
  | .created id => some id
  | _ => none

theorem Reply.id?_ofNext (name : String) (id : Nat) :
    (Reply.ofNext name id).id? = if id < maxId then some id else none := by
  unfold Reply.ofNext
  split <;> rfl

/-- A record is created when a create is told an identifier. -/
theorem number_created? (name : String) (command : Command) (reply : Reply) :
    (created? name (command, reply)).map Prod.snd =
      if command.creates name then reply.id? else none := by
  cases command with
  | create target fields =>
    by_cases htarget : target = name
    · cases reply <;> simp [created?, Command.creates, Reply.id?, htarget]
    · cases reply <;> simp [created?, Command.creates, htarget]
  | update | find | count | load | records | names => rfl

theorem Transcript.numbers_created (transcript : Transcript) (name : String) :
    (transcript.created name).map Prod.snd =
      (transcript.createReplies name).filterMap Reply.id? := by
  rw [created, createReplies, List.map_filterMap, List.filterMap_map, List.filterMap_filter]
  refine List.filterMap_congr fun entry _ => ?_
  exact number_created? name entry.1 entry.2

namespace Database

variable {db : Database}

/-- The identifiers that a session hands out in a collection follow one another from where the
sequence stands, one for each create, and end before the largest integer. -/
theorem numbers_created_run (h : db.Consistent) (commands : List Command) (name : String) :
    ((db.transcript commands).created name).map Prod.snd =
      (List.range' (db.collection name).nextId (commands.countP (·.creates name))).filter
        (· < maxId) := by
  have hfirst := (Nat.min_eq_left (h.collection name).nextId_bounds.2).symm
  rw [Transcript.numbers_created, createReplies_run h commands name _ hfirst, List.filterMap_map,
    ← List.filterMap_eq_filter]
  refine List.filterMap_congr fun id _ => ?_
  rw [Function.comp_apply, Reply.id?_ofNext]
  simp [Option.guard]

/-- A create fails at the end of the sequence, and no other command fails. -/
theorem failed_iff {command : Command} {fault : Fault} :
    (command.run db).1 = .failed fault ↔ ∃ name fields, command = .create name fields ∧
      (db.collection name).nextId = maxId ∧ fault = .sequenceExhausted name := by
  cases command with
  | create name fields =>
    rw [Command.run]
    cases hc : db.create name fields with
    | ok result =>
      have hmax : (db.collection name).nextId ≠ maxId := fun heq => by
        rw [create_eq_error_iff.2 ⟨heq, rfl⟩] at hc
        cases hc
      simp [hmax]
    | error found =>
      obtain ⟨hmax, rfl⟩ := create_eq_error_iff.1 hc
      simp [hmax, eq_comm]
  | update name value fields =>
    rw [Command.run]
    cases db.update? name value fields <;> simp
  | find | count | load | records | names => simp [Command.run]

/-- A command that fails leaves the database as it is. -/
theorem run_of_failed {command : Command} {fault : Fault} (h : (command.run db).1 = .failed fault) :
    (command.run db).2 = db := by
  obtain ⟨name, fields, rfl, hmax, -⟩ := failed_iff.1 h
  rw [Command.run, create_eq_error_iff.2 ⟨hmax, rfl⟩]

/-- A lookup finds a record for the values that name one of the identifiers. -/
theorem exists_load? (h : db.Consistent) {name : String} {value : Value} {id : Nat}
    (hvalue : coerceId value = some id) (hid : id ∈ (db.collection name).ids) :
    ∃ record, db.load? name value = some record ∧ recordId? record = some id := by
  obtain ⟨record, hr, hrid⟩ := Collection.mem_ids.1 hid
  refine ⟨record, ?_, hrid⟩
  rw [load?, hvalue]
  exact (h.collection name).get?_eq_some_iff.2 ⟨hr, hrid⟩

/-- A stored record can be updated, and the update is read back under every spelling of its
identifier. -/
theorem load?_update (h : db.Consistent) {name : String} {value : Value} {id : Nat}
    {record : Document} (hvalue : coerceId value = some id)
    (hload : db.load? name value = some record) (fields : Document) :
    ∃ next, (Command.update name value fields).run db = (.updated true, next) ∧
      ∀ other, coerceId other = some id → next.load? name other =
        some (Collection.stored id (record.merge (fields.without idField))) := by
  obtain ⟨next, hu⟩ : ∃ next, db.update? name value fields = some next :=
    Option.isSome_iff_exists.1 (by rw [isSome_update?_eq, hload]; rfl)
  refine ⟨next, run_update_eq_iff.2 hu, fun other hother => ?_⟩
  obtain ⟨found, changed, hfound, hchanged, rfl⟩ := update?_eq_some_iff.1 hu
  obtain rfl := Option.some.inj (hvalue.symm.trans hfound)
  rw [load?, hvalue, Option.bind_some] at hload
  rw [load?, hother, Option.bind_some, collection_put, if_pos rfl,
    (h.collection name).get?_update? hchanged, if_pos rfl, hload, Option.map_some]

/-- A create fails exactly when the identifier past the largest is the largest integer. -/
theorem create_failed_iff (h : db.Consistent) {name : String} {fields : Document} {fault : Fault} :
    ((Command.create name fields).run db).1 = .failed fault ↔
      (db.collection name).ids.max?.getD 0 + 1 = maxId ∧ fault = .sequenceExhausted name := by
  rw [failed_iff, ← (h.collection name).nextId_eq_max?]
  constructor
  · rintro ⟨_, _, heq, hmax, rfl⟩
    cases heq
    exact ⟨hmax, rfl⟩
  · rintro ⟨hmax, rfl⟩
    exact ⟨name, fields, rfl, hmax, rfl⟩

/-- A stored record is looked up, found and counted under every spelling of its identifier, and can
be updated. -/
theorem served_of_mem_ids (h : db.Reachable) {name : String} {value : Value} {id : Nat}
    (hvalue : coerceId value = some id) (hid : id ∈ (db.collection name).ids) : ∃ record,
      recordId? record = some id ∧ db.load? name value = some record ∧
      db.find name (Query.ofFilter (Filter.matching idField value)) = [record] ∧
      db.count name (Filter.matching idField value) = 1 ∧
      ∀ fields : Document, ∃ next, (Command.update name value fields).run db =
          (.updated true, next) ∧
        next.load? name value =
          some (Collection.stored id (record.merge (fields.without idField))) := by
  obtain ⟨record, hload, hrecord⟩ := exists_load? h.consistent hvalue hid
  have hscan := select_matching_id h name value
  rw [hload, Option.toList_some] at hscan
  refine ⟨record, hrecord, hload, ?_, ?_, fun fields => ?_⟩
  · rw [find_ofFilter, hscan]
  · rw [count_eq_length_select, hscan]
    rfl
  · obtain ⟨next, hrun, hread⟩ := load?_update h.consistent hvalue hload fields
    exact ⟨next, hrun, hread value hvalue⟩

/-- What a session makes of the identifiers of a collection, from any start and at any moment `now`
of it.

The creates so far were told one identifier after the other, beginning one past the largest at the
start, and were refused at the end of the sequence; these identifiers were appended to the row, of
which nothing is ever lost, moved or used again. A create fails exactly when the next identifier is
the largest integer, and this stays so; a command that fails changes nothing. Wherever the sequence
stands, all stored records can be found and updated. -/
theorem ids_session {start : Database} (h : start.Reachable) (name : String)
    (front back : List Command) :
    let first := (start.collection name).ids.max?.getD 0 + 1
    let given := List.range' first (front.countP (·.creates name))
    let now := (start.run front).2
    let later := (start.run (front ++ back)).2
    let ids := (now.collection name).ids
    (start.transcript front).createReplies name = given.map (Reply.ofNext name) ∧
    ids = (start.collection name).ids ++ given.filter (· < maxId) ∧
    (now.records name).map recordId? = ids.map some ∧
    ids <+: (later.collection name).ids ∧ (later.collection name).ids.Nodup ∧
    (∀ (fields : Document) (fault : Fault),
      ((Command.create name fields).run now).1 = .failed fault ↔
        ids.max?.getD 0 + 1 = maxId ∧ fault = .sequenceExhausted name) ∧
    (Fault.sequenceExhausted name).kind = .backend ∧
    (ids.max?.getD 0 + 1 = maxId → (later.collection name).ids.max?.getD 0 + 1 = maxId) ∧
    (∀ (command : Command) (fault : Fault), (command.run now).1 = .failed fault → (command.run now).2 = now) ∧
    (∀ (value : Value) (id : Nat), coerceId value = some id → id ∈ ids → ∃ record,
      recordId? record = some id ∧ now.load? name value = some record ∧
      now.find name (Query.ofFilter (Filter.matching idField value)) = [record] ∧
      now.count name (Filter.matching idField value) = 1 ∧
      ∀ fields : Document, ∃ next, (Command.update name value fields).run now = (.updated true, next) ∧
        next.load? name value =
          some (Collection.stored id (record.merge (fields.without idField)))) := by
  intro first given now later ids
  have hstart := h.consistent
  have hreach : now.Reachable := h.session front
  have hnow := hreach.consistent
  have hrun : later = (now.run back).2 := run_append start front back
  have hlater : later.Consistent := (h.session (front ++ back)).consistent
  -- the sequence stands one past the largest identifier, at every moment
  have hfirst : (start.collection name).nextId = first := (hstart.collection name).nextId_eq_max?
  have hnext : (now.collection name).nextId = ids.max?.getD 0 + 1 :=
    (hnow.collection name).nextId_eq_max?
  have hend := (hlater.collection name).nextId_eq_max?
  have hreplies := createReplies_run hstart front name first (by
    have := (hstart.collection name).nextId_bounds.2
    omega)
  have hids := ids_run hstart front name
  rw [numbers_created_run hstart, hfirst] at hids
  refine ⟨hreplies, hids, (hnow.collection name).map_recordId?, ?_,
    (hlater.collection name).nodup_ids, fun fields fault => create_failed_iff hnow, rfl, ?_,
    fun command fault => run_of_failed, fun value id => served_of_mem_ids hreach⟩
  · rw [hrun, ids_run hnow]
    exact List.prefix_append _ _
  · intro hmax
    rw [← hend, hrun, nextId_run hnow, hnext]
    omega

/-- Two creates where one identifier is left, with a create in another collection between them. -/
theorem ids_session_exhausted : ∃ start,
    (Dataset.empty.add "A" [[("id", idValue (maxId - 2))]]).load = .ok start ∧
    (start.transcript [.create "A" [], .create "B" [], .create "A" [("id", .int32 1)]]).createReplies
      "A" = [.created (maxId - 1), .failed (.sequenceExhausted "A")] ∧
    ((start.run [.create "A" [], .create "B" [], .create "A" [("id", .int32 1)]]).2.collection
      "A").ids = [maxId - 2, maxId - 1] := by
  have hload : ∃ start, (Dataset.empty.add "A" [[("id", idValue (maxId - 2))]]).load = .ok start ∧
      (start.collection "A").ids = [maxId - 2] := ⟨_, rfl, by decide⟩
  obtain ⟨start, hload, hids⟩ := hload
  have h := ids_session (.load hload) "A"
    [.create "A" [], .create "B" [], .create "A" [("id", .int32 1)]] []
  rw [hids] at h
  exact ⟨start, hload, h.1, h.2.1⟩

end Database

end DocumentStore
