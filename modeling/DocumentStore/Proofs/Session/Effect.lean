import DocumentStore.Proofs.Dataset.Dump
import DocumentStore.Proofs.Session.Step

/-!
# What a write does to the records

Index and sequence of a collection follow from its records, so a consistent database is given by the
names of its collections and their records. Each write is one law for each of these views.

* `ext_records`: databases with the same names and the same records are the same;
* `revise` is what an update does to a record, and `records_update` says that it is done to every record
  of the collection in its place; `revise_revise` and `revise_comm` are its laws;
* `records_create`: a create appends a record, or does nothing at the end of the sequence;
* `mem_names_run`: only a create brings a collection into being.
-/

namespace DocumentStore

/-! ## Revising a record -/

/-- What an update makes of a record: fields are merged into the record that carries the identifier, and
every other record stays as it is. The fields have no say about the identifier. -/
def revise (id? : Option Nat) (fields record : Document) : Document :=
  if recordId? record = id? then record.merge (fields.without idField) else record

variable {id? other? : Option Nat} {fields later record : Document}

theorem revise_of_ne (h : recordId? record ≠ id?) (fields : Document) :
    revise id? fields record = record :=
  if_neg h

/-- A revised record carries the same identifier. -/
theorem recordId?_revise (id? : Option Nat) (fields record : Document) :
    recordId? (revise id? fields record) = recordId? record := by
  have hnone : Fields.get? (fields.without idField).reverse idField = none := by
    rw [Fields.get?_reverse_eq_none_iff, Fields.names_without]
    simp
  unfold revise
  split
  · rw [recordId?, Fields.get?_merge, hnone, Option.none_or, recordId?]
  · rfl

/-- Two revisions of one record are one revision by the fields of both. -/
theorem revise_revise (h : fields.names.Nodup) (id? : Option Nat) (later record : Document) :
    revise id? later (revise id? fields record) = revise id? (fields.merge later) record := by
  have hwithout : (fields.without idField).names.Nodup := by
    rw [Fields.names_without]
    exact h.filter _
  have hsame := recordId?_revise id? fields record
  rw [revise, hsame]
  unfold revise
  split
  · rw [Fields.merge_merge hwithout, ← Fields.without_merge]
  · rfl

/-- Revisions under different identifiers do not get into each other's way. -/
theorem revise_comm (h : recordId? record = id? → recordId? record ≠ other?)
    (fields later : Document) :
    revise id? fields (revise other? later record) =
      revise other? later (revise id? fields record) := by
  by_cases hid : recordId? record = id?
  · have hother := h hid
    have hrevised : recordId? (revise id? fields record) ≠ other? := by rwa [recordId?_revise]
    rw [revise_of_ne hother, revise_of_ne hrevised]
  · have hrevised : recordId? (revise other? later record) ≠ id? := by rwa [recordId?_revise]
    rw [revise_of_ne hid, revise_of_ne hrevised]

namespace Collection

variable {c d : Collection} {id : Nat}

/-- A stored record stays in its stored form when fields other than the identifier are merged into it. -/
theorem stored_merge_self (id : Nat) (fields later : Document) :
    stored id ((stored id fields).merge (later.without idField)) =
      (stored id fields).merge (later.without idField) := by
  have hname : idField ∉ (later.without idField).names := by
    rw [Fields.names_without]
    simp
  rw [stored_merge, stored, stored, Fields.merge_cons hname, Fields.without_merge]

/-- Index and sequence follow from the records. -/
theorem Consistent.ext (hc : c.Consistent) (hd : d.Consistent)
    (h : c.records.toList = d.records.toList) : c = d := by
  refine hc.toIndexed.ext hd.toIndexed (Array.toList_inj.1 h) ?_
  rw [hc.nextId_eq, hd.nextId_eq, h]

/-! ## One collection -/

/-- An update revises every record in its place. -/
theorem Indexed.records_update? (h : c.Indexed) (hu : c.update? id fields = some d) :
    d.records.toList = c.records.toList.map (revise (some id) fields) := by
  obtain ⟨record, hget, hr⟩ := update?_eq_some_iff.1 hu
  obtain ⟨position, hp, rfl⟩ := replace?_eq_some_iff.1 hr
  have hrecord : c.records[position]? = some record := by rwa [Collection.get?, hp] at hget
  refine List.ext_getElem? fun place => ?_
  rw [Array.toList_setIfInBounds, List.getElem?_set, List.getElem?_map, Array.getElem?_toList,
    Array.length_toList]
  by_cases hplace : position = place
  · subst hplace
    obtain ⟨hmem, hid⟩ := h.get?_eq_some_iff.1 hget
    obtain ⟨other, fields', h0, hlt, rfl⟩ := h.stored_form record hmem
    rw [recordId?_stored h0 (Nat.le_of_lt hlt), Option.some.injEq] at hid
    subst hid
    rw [if_pos rfl, if_pos (h.position_lt hp), hrecord, Option.map_some, revise,
      if_pos (recordId?_stored h0 (Nat.le_of_lt hlt) _), stored_merge_self]
  · rw [if_neg hplace]
    cases hother : c.records[place]? with
    | none => rfl
    | some other =>
      -- the identifier has one place only, and this is another one
      have hne : recordId? other ≠ some id := fun hid => by
        have hidAt := (h.position_iff id place).2 (idAt?_eq_some_iff.2 ⟨other, hother, hid⟩)
        exact hplace (Option.some.inj (hp.symm.trans hidAt))
      rw [Option.map_some, revise_of_ne hne]

/-- A value leads to a record when some record carries the identifier that it names. -/
theorem Indexed.isSome_bind_get? (h : c.Indexed) (value : Value) :
    ((coerceId value).bind c.get?).isSome =
      c.records.toList.any fun record => recordId? record == coerceId value := by
  cases coerceId value with
  | none =>
    -- every record carries an identifier
    refine Eq.symm (List.any_eq_false.2 fun record hr => ?_)
    obtain ⟨id, -, -, hid⟩ := h.exists_recordId (Array.mem_toList_iff.1 hr)
    simp [hid]
  | some id => rw [Option.bind_some, h.get?_eq_find?, List.isSome_find?]

namespace Step

variable {name : String} {value : Value} {reply : Reply}

/-- An update is told whether there is a record to revise. -/
theorem reply_update (h : Step name c (.update name value fields, reply) d) (hc : c.Indexed) :
    reply = .updated (c.records.toList.any fun record => recordId? record == coerceId value) := by
  rw [← hc.isSome_bind_get?]
  cases h with
  | updated hid hu =>
    obtain ⟨record, hget, -⟩ := update?_eq_some_iff.1 hu
    rw [hid, Option.bind_some, hget]
    rfl
  | missed hmiss => rw [hmiss]; rfl
  | unrelated htarget => exact absurd rfl htarget

/-- Where an update finds no record, there is none to revise. -/
theorem records_update (h : Step name c (.update name value fields, reply) d) (hc : c.Indexed) :
    d.records.toList = c.records.toList.map (revise (coerceId value) fields) := by
  cases h with
  | updated hid hu => rw [hid, hc.records_update? hu]
  | missed hmiss =>
    have hnone := hc.isSome_bind_get? value
    rw [hmiss, eq_comm, Option.isSome_none, List.any_eq_false] at hnone
    have hsame : ∀ record ∈ c.records.toList, revise (coerceId value) fields record = record :=
      fun record hr => revise_of_ne (fun hid => hnone record hr (beq_iff_eq.2 hid)) fields
    rw [List.map_congr_left hsame, List.map_id']
  | unrelated htarget => exact absurd rfl htarget

/-- A create appends a record, except at the end of the sequence. -/
theorem records_create (h : Step name c (.create name fields, reply) d) :
    d.records.toList = c.records.toList ++
      if c.nextId = maxId then [] else [stored c.nextId fields] := by
  cases h with
  | created h =>
    obtain ⟨hmax, rfl, rfl⟩ := create?_eq_some_iff.1 h
    rw [if_neg hmax]
    exact toList_records_push c c.nextId fields
  | exhausted hmax => rw [if_pos hmax, List.append_nil]
  | unrelated htarget => exact absurd rfl htarget

end Step

end Collection

/-! ## A database -/

namespace Database

variable {db other : Database} {name : String}

/-- Databases with the same names and the same records are the same. -/
theorem Consistent.ext_records (h : db.Consistent) (h' : other.Consistent)
    (hnames : ∀ name, name ∈ db.names ↔ name ∈ other.names)
    (hrecords : ∀ name, db.records name = other.records name) : db = other := by
  refine ext_getElem? fun name => ?_
  have hcollection := (h.collection name).ext (h'.collection name) (hrecords name)
  rw [getElem?_collections, getElem?_collections, hcollection]
  simp only [hnames]

theorem ascending_names (db : Database) : db.names.Pairwise (· < ·) := by
  have hordered := Std.ExtTreeMap.ordered_keys (t := db.collections)
  exact hordered.imp fun {_ _} hlt => compareOfLessAndEq_eq_lt.1 hlt

theorem names_eq_of_mem_iff (h : ∀ name, name ∈ db.names ↔ name ∈ other.names) :
    db.names = other.names := by
  refine List.Perm.eq_of_pairwise (fun _ _ _ _ hlt hgt => ?_) db.ascending_names other.ascending_names
    ((List.perm_ext_iff_of_nodup db.nodup_names other.nodup_names).2 h)
  exact absurd hgt (String.lt_asymm hlt)

theorem collection_of_not_mem_names (h : name ∉ db.names) : db.collection name = Collection.empty := by
  have hnone := getElem?_collections db name
  rw [if_neg h] at hnone
  rw [collection, hnone]
  rfl

theorem mem_names_put_of_mem (h : name ∈ db.names) (c : Collection) (other : String) :
    other ∈ (db.put name c).names ↔ other ∈ db.names := by
  rw [mem_names_put, or_iff_right_iff_imp]
  exact fun heq => heq ▸ h

theorem records_run_of_ne {command : Command} (h : command.target? ≠ some name) :
    (command.run db).2.records name = db.records name := by
  rw [records, Command.collection_run_of_ne db h, records]

/-- A create brings its collection into being, and no other command does. -/
theorem mem_names_run (db : Database) (command : Command) (name : String) :
    name ∈ (command.run db).2.names ↔ command.creates name = true ∨ name ∈ db.names := by
  cases command with
  | create target fields =>
    rw [Command.creates, beq_iff_eq, Command.run]
    split
    · next hc =>
      obtain ⟨grown, -, rfl⟩ := create_eq_ok_iff.1 hc
      exact mem_names_put db target grown name
    · next hc =>
      -- the sequence of an unknown collection is not at its end
      obtain ⟨hmax, -⟩ := create_eq_error_iff.1 hc
      have hmem : target ∈ db.names := by
        by_contra hnew
        rw [collection_of_not_mem_names hnew] at hmax
        cases hmax
      exact (or_iff_right_of_imp fun heq => heq ▸ hmem).symm
  | update target value fields =>
    have hcreates : ¬ (Command.update target value fields).creates name := Bool.false_ne_true
    rw [or_iff_right hcreates, Command.run]
    split
    · next hu =>
      obtain ⟨id, changed, -, hchanged, rfl⟩ := update?_eq_some_iff.1 hu
      -- an unknown collection holds no record to update
      have hmem : target ∈ db.names := by
        by_contra hnew
        rw [collection_of_not_mem_names hnew] at hchanged
        cases hchanged
      exact mem_names_put_of_mem hmem changed name
    · rfl
  | find | count | load | records | names => exact (or_iff_right Bool.false_ne_true).symm

/-! ### Updating -/

theorem records_update (h : db.Consistent) (name : String) (value : Value) (fields : Document)
    (other : String) : ((Command.update name value fields).run db).2.records other =
      if name = other then (db.records other).map (revise (coerceId value) fields)
      else db.records other := by
  have hstep := Command.step db (.update name value fields) other
  split
  · next heq =>
    subst heq
    exact hstep.records_update (h.collection name).toIndexed
  · next hne =>
    exact records_run_of_ne fun heq => hne (Option.some.inj heq)

theorem nextId_update (h : db.Consistent) (name : String) (value : Value) (fields : Document)
    (other : String) : (((Command.update name value fields).run db).2.collection other).nextId =
      (db.collection other).nextId :=
  (Command.step db (.update name value fields) other).nextId (h.collection other)

theorem reply_update (h : db.Consistent) (name : String) (value : Value) (fields : Document) :
    ((Command.update name value fields).run db).1 =
      .updated ((db.records name).any fun record => recordId? record == coerceId value) :=
  (Command.step db (.update name value fields) name).reply_update (h.collection name).toIndexed

/-- Whether there is a record to update does not depend on updates that went before. -/
theorem reply_update_run_update (h : db.Consistent) (name target : String) (value found : Value)
    (fields later last : Document) :
    ((Command.update target found later).run ((Command.update name value fields).run db).2).1 =
      ((Command.update target found last).run db).1 := by
  rw [reply_update (h.run _), reply_update h, records_update h]
  split
  · rw [List.any_map]
    simp only [Function.comp_def, recordId?_revise]
  · rfl

/-! ### Creating -/

theorem records_create (db : Database) (name : String) (fields : Document) (other : String) :
    ((Command.create name fields).run db).2.records other =
      if name = other then db.records other ++ if (db.collection other).nextId = maxId then []
        else [Collection.stored (db.collection other).nextId fields]
      else db.records other := by
  have hstep := Command.step db (.create name fields) other
  split
  · next heq =>
    subst heq
    exact hstep.records_create
  · next hne =>
    exact records_run_of_ne fun heq => hne (Option.some.inj heq)

theorem nextId_create_of_ne {other : String} (hne : name ≠ other) (fields : Document) :
    (((Command.create name fields).run db).2.collection other).nextId =
      (db.collection other).nextId := by
  have htarget : (Command.create name fields).target? ≠ some other := fun heq =>
    hne (Option.some.inj heq)
  rw [Command.collection_run_of_ne db htarget]

theorem reply_create (h : db.Consistent) (name : String) (fields : Document) :
    ((Command.create name fields).run db).1 = Reply.ofNext name (db.collection name).nextId :=
  (Command.step db (.create name fields) name).reply_eq (h.collection name) (beq_self_eq_true name)

/-- A create is given the identifier where the sequence stands, unless that is the last one. -/
theorem reply_create_eq_created_iff (h : db.Consistent) {fields : Document} {id : Nat} :
    ((Command.create name fields).run db).1 = .created id ↔
      id = (db.collection name).nextId ∧ id ≠ maxId := by
  have hle := (h.collection name).nextId_bounds.2
  rw [reply_create h, Reply.ofNext]
  split
  · rw [Reply.created.injEq]
    omega
  · refine iff_of_false Reply.noConfusion ?_
    omega

end Database

end DocumentStore
