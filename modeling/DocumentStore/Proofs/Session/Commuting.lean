import DocumentStore.Proofs.Session.Effect

/-!
# Writes that commute

Two writes commute where the order in which they are run can be seen neither in the database nor in
the replies. Writes to different records do: an update revises records that another does not look at,
and a create takes the end of a collection, which an update leaves where it is.

* `Commute.of_records`: which names there are never depends on the order, so that of the database only
  the records are to be compared;
* `commute_update_update`, `commute_update_create_iff` and `commute_create_create`: the three pairs of
  writes; only an update of the record that the create is about to make does not commute with it.
-/

namespace DocumentStore

namespace Database

variable {db : Database} {first second : Command} {name other : String} {value found : Value}
  {fields later : Document}

/-- Two commands may be run in either order: both are told the same, and the database is the same after
both. -/
structure Commute (db : Database) (first second : Command) : Prop where
  /-- The first command is told the same after the second. -/
  first_reply : (first.run (second.run db).2).1 = (first.run db).1
  /-- The second command is told the same after the first. -/
  second_reply : (second.run (first.run db).2).1 = (second.run db).1
  /-- Both orders lead to the same database. -/
  database_eq : (second.run (first.run db).2).2 = (first.run (second.run db).2).2

/-- The order of two commands has no say in which collections there are. -/
theorem Commute.of_records (h : db.Consistent)
    (hfirst : (first.run (second.run db).2).1 = (first.run db).1)
    (hsecond : (second.run (first.run db).2).1 = (second.run db).1)
    (hrecords : ∀ name, (second.run (first.run db).2).2.records name =
      (first.run (second.run db).2).2.records name) : db.Commute first second where
  first_reply := hfirst
  second_reply := hsecond
  database_eq := by
    refine ((h.run first).run second).ext_records ((h.run second).run first) (fun name => ?_) hrecords
    rw [mem_names_run, mem_names_run, mem_names_run, mem_names_run, or_left_comm]

/-! ## Two updates -/

/-- Updates commute unless both name the same identifier of the same collection. -/
theorem commute_update_update (h : db.Consistent)
    (hne : name ≠ other ∨ ∀ id, ¬ (coerceId value = some id ∧ coerceId found = some id)) :
    db.Commute (.update name value fields) (.update other found later) := by
  refine .of_records h (reply_update_run_update h ..) (reply_update_run_update h ..) fun target => ?_
  rw [records_update (h.run _), records_update h, records_update (h.run _), records_update h]
  by_cases hname : name = target
  · by_cases hother : other = target
    · simp only [if_pos hname, if_pos hother, List.map_map]
      obtain hne | hne := hne
      · exact absurd (hname.trans hother.symm) hne
      · refine List.map_congr_left fun record hr => (revise_comm (fun hid hid' => ?_) ..).symm
        -- what an update revises is stored under an identifier
        obtain ⟨id, -, -, hrecord⟩ :=
          (h.collection target).toIndexed.exists_recordId (Array.mem_toList_iff.1 hr)
        exact hne id ⟨hid.symm.trans hrecord, hid'.symm.trans hrecord⟩
    · simp only [if_neg hother]
  · simp only [if_neg hname]

/-! ## An update and a create -/

/-- Before an identifier has been handed out no record carries it. -/
theorem any_recordId?_nextId (h : db.Consistent) (name : String) :
    ((db.records name).any fun record =>
      recordId? record == some (db.collection name).nextId) = false := by
  refine List.any_eq_false.2 fun record hr hid => ?_
  have hmem := Collection.mem_ids.2 ⟨record, Array.mem_toList_iff.1 hr, beq_iff_eq.1 hid⟩
  exact Nat.lt_irrefl _ ((h.collection name).lt_nextId hmem)

/-- A value names the record that a create is about to make when it names the next identifier, and
the sequence is not at its end. -/
theorem exists_created_iff (h : db.Consistent) :
    (∃ id, coerceId value = some id ∧ ((Command.create name fields).run db).1 = .created id) ↔
      (db.collection name).nextId ≠ maxId ∧ coerceId value = some (db.collection name).nextId := by
  simp only [reply_create_eq_created_iff h]
  constructor
  · rintro ⟨_, hvalue, rfl, hmax⟩
    exact ⟨hmax, hvalue⟩
  · rintro ⟨hmax, hvalue⟩
    exact ⟨_, hvalue, rfl, hmax⟩

/-- A create makes a difference to the update of the one record that it makes. -/
theorem reply_update_run_create_iff (h : db.Consistent) :
    ((Command.update name value fields).run ((Command.create other later).run db).2).1 =
      ((Command.update name value fields).run db).1 ↔
    ¬ (name = other ∧ ∃ id, coerceId value = some id ∧
      ((Command.create other later).run db).1 = .created id) := by
  rw [reply_update (h.run _), reply_update h, records_create, Reply.updated.injEq,
    exists_created_iff h]
  by_cases hname : other = name
  · subst hname
    obtain ⟨h0, hle⟩ := (h.collection other).nextId_bounds
    rw [if_pos rfl]
    by_cases hmax : (db.collection other).nextId = maxId
    · simp [hmax]
    · rw [if_neg hmax, List.any_append, List.any_cons, List.any_nil, Bool.or_false,
        recordId?_stored h0 hle]
      by_cases hid : coerceId value = some (db.collection other).nextId
      · rw [hid, any_recordId?_nextId h]
        simp [hmax]
      · have hbeq : (some (db.collection other).nextId == coerceId value) = false :=
          beq_eq_false_iff_ne.2 (Ne.symm hid)
        rw [hbeq, Bool.or_false]
        exact iff_of_true rfl fun hsame => hid hsame.2.2
  · rw [if_neg hname]
    exact iff_of_true rfl fun hsame => hname hsame.1.symm

/-- An update and a create commute unless the update names the record that the create is about to
make. -/
theorem commute_update_create_iff (h : db.Consistent) :
    db.Commute (.update name value fields) (.create other later) ↔
      ¬ (name = other ∧ ∃ id, coerceId value = some id ∧
        ((Command.create other later).run db).1 = .created id) := by
  refine ⟨fun hcommute => (reply_update_run_create_iff h).1 hcommute.first_reply, fun hapart => ?_⟩
  refine .of_records h ((reply_update_run_create_iff h).2 hapart) ?_ fun target => ?_
  · rw [reply_create (h.run _), reply_create h, nextId_update h]
  · rw [records_create, records_update h, nextId_update h, records_update (h.run _), records_create]
    by_cases hother : other = target
    · by_cases hname : name = target
      · simp only [if_pos hother, if_pos hname, List.map_append]
        refine congrArg _ ?_
        subst hother hname
        split
        · rfl
        · next hmax =>
          -- the new record is not the one that the update names
          obtain ⟨h0, hle⟩ := (h.collection name).nextId_bounds
          rw [List.map_singleton, revise_of_ne]
          rw [recordId?_stored h0 hle]
          exact fun hid => hapart ⟨rfl, (exists_created_iff h).2 ⟨hmax, hid.symm⟩⟩
      · simp only [if_neg hname]
    · simp only [if_neg hother]

/-! ## Two creates -/

/-- Creates in different collections commute. -/
theorem commute_create_create (h : db.Consistent) (hne : name ≠ other) :
    db.Commute (.create name fields) (.create other later) := by
  refine .of_records h ?_ ?_ fun target => ?_
  · rw [reply_create (h.run _), reply_create h, nextId_create_of_ne hne.symm]
  · rw [reply_create (h.run _), reply_create h, nextId_create_of_ne hne]
  · by_cases hname : name = target
    · have hother : other ≠ target := fun heq => hne (hname.trans heq.symm)
      simp only [records_create, if_pos hname, if_neg hother, nextId_create_of_ne hother]
    · simp only [records_create, if_neg hname, nextId_create_of_ne hname]

/-- Writes to different records commute. Two updates do so unless both name the same identifier of the
same collection; an update and a create do so unless the update names the very record that the create
is about to make, and then they do not; and creates do so in different collections.

This is also said of updates that find no record, of creates at the end of the sequence, and of creates
that bring a collection into being. -/
theorem writes_commute (h : db.Reachable) :
    (∀ (name other : String) (value found : Value) (fields later : Document),
      (name ≠ other ∨ ∀ id, ¬ (coerceId value = some id ∧ coerceId found = some id)) →
      db.Commute (.update name value fields) (.update other found later)) ∧
    (∀ (name other : String) (value : Value) (fields later : Document),
      db.Commute (.update name value fields) (.create other later) ↔
        ¬ (name = other ∧ ∃ id, coerceId value = some id ∧
          ((Command.create other later).run db).1 = .created id)) ∧
    (∀ (name other : String) (fields later : Document), name ≠ other →
      db.Commute (.create name fields) (.create other later)) :=
  ⟨fun _ _ _ _ _ _ => commute_update_update h.consistent,
    fun _ _ _ _ _ => commute_update_create_iff h.consistent,
    fun _ _ _ _ => commute_create_create h.consistent⟩

/-- One collection is at the end of its sequence, another is about to hand out its second identifier,
and a third is yet to come into being. -/
theorem writes_commute_exhausted : ∃ start : Database,
    ((Dataset.empty.add "A" [[("id", idValue (maxId - 1))]]).add "B" [[]]).load = .ok start ∧
    ((Command.create "A" []).run start).1 = .failed (.sequenceExhausted "A") ∧
    ((Command.create "B" []).run start).1 = .created 2 ∧ "C" ∉ start.names ∧
    start.Commute (.create "A" []) (.create "C" [("n", .null)]) ∧
    start.Commute (.update "B" (.string "1.0") [("n", .null)]) (.create "B" []) ∧
    ¬ start.Commute (.update "B" (.string "2.0") [("n", .null)]) (.create "B" []) ∧
    start.Commute (.update "B" (.string "1.0") [("n", .null)])
      (.update "B" (.int64 2) [("n", .int32 1)]) := by
  have hload : ∃ start,
      ((Dataset.empty.add "A" [[("id", idValue (maxId - 1))]]).add "B" [[]]).load = .ok start ∧
      (start.collection "A").nextId = maxId ∧ (start.collection "B").nextId = 2 ∧
      "C" ∉ start.names := ⟨_, rfl, by decide⟩
  obtain ⟨start, hload, hA, hB, hC⟩ := hload
  have hreach : start.Reachable := .load hload
  have hone : coerceId (.string "1.0") = some 1 := by decide +kernel
  have htwo : coerceId (.string "2.0") = some 2 := by decide +kernel
  have hcreated : ((Command.create "B" []).run start).1 = .created 2 := by
    rw [reply_create hreach.consistent, hB]
    rfl
  have hfree : ¬ ("B" = "B" ∧ ∃ id, coerceId (.string "1.0") = some id ∧
      ((Command.create "B" []).run start).1 = .created id) := by
    rw [hone, hcreated]
    rintro ⟨-, id, hid, hreply⟩
    cases hid
    cases hreply
  have hapart : ∀ id, ¬ (coerceId (.string "1.0") = some id ∧ coerceId (.int64 2) = some id) := by
    rw [hone]
    rintro id ⟨hid, hother⟩
    cases hid
    cases hother
  obtain ⟨hupdates, hcreate, hcreates⟩ := writes_commute hreach
  refine ⟨start, hload, ?_, hcreated, hC, hcreates _ _ _ _ (by decide), (hcreate ..).2 hfree,
    fun hcommute => (hcreate ..).1 hcommute ⟨rfl, 2, htwo, hcreated⟩, hupdates _ _ _ _ _ _ (.inr hapart)⟩
  rw [reply_create hreach.consistent, hA]
  rfl

end Database

end DocumentStore
