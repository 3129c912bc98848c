import DocumentStore.Proofs.Session.Effect
import DocumentStore.Proofs.Session.Isolation

/-!
# What a create adds

A create appends one record, and every later read can be told from this: a query of the collection has
one more row if its filter admits the record, the record is looked up under every spelling of its
identifier, and nothing else has changed.

* `Appends` says this of two databases;
* `appends_of_created`: a create that is given an identifier appends a record under it;
* `create_appends`: so does every create, except at the end of the sequence, where nothing happens.
-/

namespace DocumentStore

/-- The record that a create makes is looked up under its identifier, and all others as before. -/
theorem Collection.Step.get?_create {name : String} {c d : Collection} {fields : Document} {id : Nat}
    (h : Step name c (.create name fields, .created id) d) (hc : c.Indexed) (other : Nat) :
    d.get? other = if id = other then some (stored id fields) else c.get? other := by
  cases h with
  | created h => exact hc.get?_create? h other
  | unrelated htarget => exact absurd rfl htarget

namespace Database

variable {db next : Database} {name : String} {fields record : Document} {id : Nat}

/-- One database is the other with one more record in the named collection, as far as any read can
tell. -/
structure Appends (db next : Database) (name : String) (id : Nat) (record : Document) : Prop where
  /-- The record comes after all others. -/
  records_eq : next.records name = db.records name ++ [record]
  /-- A filter that admits the record finds it after all others. -/
  find_eq : ∀ filter, next.find name (Query.ofFilter filter) =
    db.find name (Query.ofFilter filter) ++ if filter.admits record then [record] else []
  /-- A filter that admits the record counts one more. -/
  count_eq : ∀ filter, next.count name filter =
    db.count name filter + if filter.admits record then 1 else 0
  /-- The record is looked up under every spelling of its identifier. -/
  load_eq_some_iff : ∀ value, next.load? name value = some record ↔ coerceId value = some id
  /-- Under all other values the lookup is as before. -/
  load_eq : ∀ value, coerceId value ≠ some id → next.load? name value = db.load? name value
  /-- All other collections are read as before. A query of them may have any joins that stay away from
  this one. -/
  others_eq : ∀ other, other ≠ name →
    next.records other = db.records other ∧
    (∀ filter, next.count other filter = db.count other filter) ∧
    (∀ value, next.load? other value = db.load? other value) ∧
    ∀ query, Join.allWithin (fun source => source != name) query.joins →
      next.find other query = db.find other query

/-- What is found follows from the records. -/
theorem select_of_records_append (h : next.records name = db.records name ++ [record])
    (filter : Filter) : next.select name filter =
      db.select name filter ++ if filter.admits record then [record] else [] := by
  rw [select, select, h, List.filter_append, List.filter_singleton]
  cases filter.admits record <;> rfl

theorem load?_create (h : db.Consistent)
    (hreply : ((Command.create name fields).run db).1 = .created id) (value : Value) :
    ((Command.create name fields).run db).2.load? name value =
      if coerceId value = some id then some (Collection.stored id fields)
      else db.load? name value := by
  have hstep := Command.step db (.create name fields) name
  rw [hreply] at hstep
  rw [load?, load?]
  cases coerceId value with
  | none => rfl
  | some found =>
    rw [Option.bind_some, Option.bind_some, hstep.get?_create (h.collection name).toIndexed]
    simp only [Option.some.injEq, eq_comm]

/-- A create that is given an identifier appends a record under it. -/
theorem appends_of_created (h : db.Consistent)
    (hreply : ((Command.create name fields).run db).1 = .created id) :
    Appends db ((Command.create name fields).run db).2 name id (Collection.stored id fields) := by
  obtain ⟨rfl, hmax⟩ := (reply_create_eq_created_iff h).1 hreply
  obtain ⟨h0, hle⟩ := (h.collection name).nextId_bounds
  have hrecords := records_create db name fields name
  rw [if_pos rfl, if_neg hmax] at hrecords
  have hload := load?_create h hreply
  have hothers : AgreeOn (fun other => other != name) ((Command.create name fields).run db).2 db :=
    agreeOn_run db fun other hother heq =>
      bne_iff_ne.1 hother (Option.some.inj heq).symm
  refine ⟨hrecords, fun filter => ?_, fun filter => ?_, fun value => ⟨fun hfound => ?_, fun hid => ?_⟩,
    fun value hne => ?_, fun other hother => ?_⟩
  · rw [find_ofFilter, find_ofFilter, select_of_records_append hrecords]
  · rw [count_eq_length_select, count_eq_length_select, select_of_records_append hrecords,
      List.length_append]
    split <;> rfl
  · -- a lookup answers with a record under the identifier that it was asked for
    obtain ⟨found, hvalue, hget⟩ := Option.bind_eq_some_iff.1 hfound
    have hrecord := (((h.run _).collection name).get?_eq_some_iff.1 hget).2
    rw [hvalue, ← hrecord, recordId?_stored h0 hle]
  · rw [hload, if_pos hid]
  · rw [hload, if_neg hne]
  · have hscope : (other != name) = true := bne_iff_ne.2 hother
    exact ⟨hothers.records_eq hscope, hothers.count_eq hscope, hothers.load?_eq hscope,
      fun query => hothers.find_eq hscope⟩

/-- A create is seen by every read as one appended record, which has its identifier in front and then
all fields but the identifier as they were given. A create at the end of the sequence fails, and then
the database is as it was. -/
theorem create_appends (h : db.Reachable) (name : String) (fields : Document) :
    let result := (Command.create name fields).run db
    (∃ id, result.1 = .created id ∧
      Appends db result.2 name id ((idField, .int64 (Int64.ofNat id)) :: fields.without idField)) ∨
    result = (.failed (.sequenceExhausted name), db) := by
  intro result
  cases hc : db.create name fields with
  | ok made =>
    have hreply : result.1 = .created made.1 := by simp only [result, Command.run, hc]
    exact .inl ⟨made.1, hreply, appends_of_created h.consistent hreply⟩
  | error fault =>
    obtain ⟨-, rfl⟩ := create_eq_error_iff.1 hc
    exact .inr (by simp only [result, Command.run, hc])

/-- The third record of a collection is created from fields that name the identifier of the first one.
It is found behind the second one, counted, and looked up under a text; the first one is still looked
up under its identifier, and the other collection is joined with itself as before. -/
theorem create_appends_shadowed : ∃ start next : Database,
    start = (empty.run [.create "A" [("n", .int32 1)], .create "A" [("n", .int32 5)],
      .create "B" [("n", .int32 5)]]).2 ∧
    (Command.create "A" [("n", .int32 5), ("id", .string "1"), ("x", .null)]).run start =
      (.created 3, next) ∧
    next.find "A" (Query.ofFilter (Filter.matching "n" (.int32 5))) =
      [[("id", .int64 2), ("n", .int32 5)], [("id", .int64 3), ("n", .int32 5), ("x", .null)]] ∧
    next.count "A" (Filter.matching "n" (.int32 5)) = 2 ∧
    next.load? "A" (.string "3.0") = some [("id", .int64 3), ("n", .int32 5), ("x", .null)] ∧
    next.load? "A" (.string "1.0") = some [("id", .int64 1), ("n", .int32 1)] ∧
    next.find "B" (Query.all.withJoin "peers" (Join.ofCollection "B")) =
      [[("id", .int64 1), ("n", .int32 5),
        ("peers", .array [.document [("id", .int64 1), ("n", .int32 5)]])]] := by
  let start := (empty.run [.create "A" [("n", .int32 1)], .create "A" [("n", .int32 5)],
    .create "B" [("n", .int32 5)]]).2
  have hreach : start.Reachable := Reachable.session .empty _
  have hone : coerceId (.string "1.0") = some 1 := by decide +kernel
  have hthree : coerceId (.string "3.0") = some 3 := by decide +kernel
  obtain ⟨next, hrun⟩ : ∃ next, (Command.create "A"
      [("n", .int32 5), ("id", .string "1"), ("x", .null)]).run start = (.created 3, next) :=
    ⟨_, Prod.ext (reply_create hreach.consistent "A" _) rfl⟩
  have happends := create_appends hreach "A" [("n", .int32 5), ("id", .string "1"), ("x", .null)]
  rw [hrun] at happends
  obtain ⟨id, hid, happends⟩ | hfailed := happends
  · cases hid
    refine ⟨start, next, rfl, hrun, ?_, ?_, (happends.load_eq_some_iff _).2 hthree, ?_, ?_⟩
    · rw [happends.find_eq]
      rfl
    · rw [happends.count_eq]
      rfl
    · rw [happends.load_eq _ (by rw [hone]; decide), load?, hone]
      rfl
    · rw [(happends.others_eq "B" (by decide)).2.2.2 _ rfl]
      rfl
  · cases hfailed

end Database

end DocumentStore
