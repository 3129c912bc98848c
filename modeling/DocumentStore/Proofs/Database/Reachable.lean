import DocumentStore.Proofs.Collection.Loading
import DocumentStore.Dataset.Supply
import DocumentStore.Session

/-!
# Reachable databases

The databases that loading and commands lead to, and the invariant that all their collections
satisfy.

* `Database.Reachable`: the empty database, every database that a dataset is loaded into, and
  whatever commands make of them;
* `Database.Consistent` holds of the three kinds of states, by one lemma each;
* `reachable_invariant` spells out what it says about a collection of a reachable database.
-/

namespace DocumentStore

namespace Database

/-- The databases that can be arrived at. -/
inductive Reachable : Database → Prop
  | empty : Reachable empty
  | load {data : Dataset} {db : Database} : data.load = .ok db → Reachable db
  | run {db : Database} (command : Command) : Reachable db → Reachable (command.run db).2

/-- What is built from a supply is loaded in the end. -/
theorem Reachable.build {supply : Supply} {db : Database} (h : supply.build = .ok db) :
    db.Reachable := by
  obtain ⟨_, _, hload⟩ := bind_eq_ok_iff.1 h
  exact .load hload

theorem Reachable.create {db next : Database} (h : db.Reachable) {name : String}
    {fields : Document} {id : Nat} (hc : db.create name fields = .ok (id, next)) :
    next.Reachable := by
  have hrun := h.run (.create name fields)
  rwa [Command.run, hc] at hrun

theorem Reachable.update? {db next : Database} (h : db.Reachable) {name : String} {value : Value}
    {fields : Document} (hu : db.update? name value fields = some next) : next.Reachable := by
  have hrun := h.run (.update name value fields)
  rwa [Command.run, hu] at hrun

/-- Every collection satisfies its invariant. -/
def Consistent (db : Database) : Prop :=
  ∀ (name : String) (c : Collection), db.collections[name]? = some c → c.Consistent

variable {db next : Database} {name : String} {c : Collection}

/-! ## What the writing operations do -/

theorem create_eq_ok_iff {fields : Document} {id : Nat} :
    db.create name fields = .ok (id, next) ↔ ∃ grown,
      (db.collection name).create? fields = some (id, grown) ∧ next = db.put name grown := by
  unfold create
  cases (db.collection name).create? fields with
  | none => simp
  | some result =>
    obtain ⟨created, grown⟩ := result
    simp only [Except.ok.injEq, Prod.mk.injEq, Option.some.injEq]
    constructor
    · rintro ⟨rfl, rfl⟩
      exact ⟨grown, ⟨rfl, rfl⟩, rfl⟩
    · rintro ⟨_, ⟨rfl, rfl⟩, rfl⟩
      exact ⟨rfl, rfl⟩

/-- A create fails at the end of the sequence, and nowhere before. -/
theorem create_eq_error_iff {fields : Document} {fault : Fault} :
    db.create name fields = .error fault ↔
      (db.collection name).nextId = maxId ∧ fault = .sequenceExhausted name := by
  have hnone := @Collection.create?_eq_none_iff (db.collection name) fields
  rw [← hnone, create]
  cases (db.collection name).create? fields <;> simp [eq_comm]

/-- The first record that is created is alone in its collection. -/
theorem records_create_empty (name : String) (fields : Document) :
    ((Command.create name fields).run empty).2.records name = [Collection.stored 1 fields] := by
  have hput : ((Command.create name fields).run empty).2 =
      empty.put name { Collection.empty.push 1 fields with nextId := 2 } := rfl
  rw [hput, records, collection_put, if_pos rfl]
  rfl

/-- An update reads and writes one collection; an unknown one has no record to update. -/
theorem update?_eq_bind (db : Database) (name : String) (value : Value) (fields : Document) :
    db.update? name value fields = (coerceId value).bind fun id =>
      ((db.collection name).update? id fields).map (db.put name) := by
  unfold update? Database.collection
  cases db.collections[name]? with
  | none => cases coerceId value <;> rfl
  | some c =>
    cases coerceId value with
    | none => rfl
    | some id =>
      rw [Option.bind_some, Option.getD_some]
      show (c.update? id fields >>= fun updated => pure (db.put name updated)) = _
      cases c.update? id fields <;> rfl

theorem update?_eq_some_iff {value : Value} {fields : Document} :
    db.update? name value fields = some next ↔ ∃ id changed,
      coerceId value = some id ∧ (db.collection name).update? id fields = some changed ∧
        next = db.put name changed := by
  simp only [update?_eq_bind, Option.bind_eq_some_iff, Option.map_eq_some_iff]
  constructor
  · rintro ⟨id, hid, changed, hu, rfl⟩
    exact ⟨id, changed, hid, hu, rfl⟩
  · rintro ⟨id, changed, hid, hu, rfl⟩
    exact ⟨id, hid, changed, hu, rfl⟩

/-- An update is answered with true when it finds a record. -/
theorem run_update_eq_iff {value : Value} {fields : Document} :
    (Command.update name value fields).run db = (.updated true, next) ↔
      db.update? name value fields = some next := by
  rw [Command.run]
  cases db.update? name value fields <;> simp

/-! ## The invariant -/

theorem consistent_empty : empty.Consistent := by
  intro name c hc
  simp [empty] at hc

namespace Consistent

theorem collection (h : db.Consistent) (name : String) : (db.collection name).Consistent := by
  unfold Database.collection
  cases hc : db.collections[name]? with
  | none => exact Collection.consistent_empty
  | some c => exact h name c hc

theorem put (h : db.Consistent) (hc : c.Consistent) : (db.put name c).Consistent := by
  intro other d hd
  rw [Database.put, Std.ExtTreeMap.getElem?_insert] at hd
  split at hd
  · exact Option.some.inj hd ▸ hc
  · exact h other d hd

theorem create {fields : Document} {id : Nat} (h : db.Consistent)
    (hc : db.create name fields = .ok (id, next)) : next.Consistent := by
  obtain ⟨grown, hgrown, rfl⟩ := create_eq_ok_iff.1 hc
  exact h.put ((h.collection name).create? hgrown)

theorem update? {value : Value} {fields : Document} (h : db.Consistent)
    (hu : db.update? name value fields = some next) : next.Consistent := by
  obtain ⟨id, changed, -, hchanged, rfl⟩ := update?_eq_some_iff.1 hu
  exact h.put ((h.collection name).update? hchanged)

/-- Of all commands only a create and an update that succeed change anything. -/
theorem run (h : db.Consistent) (command : Command) : (command.run db).2.Consistent := by
  cases command with
  | create name fields =>
    rw [Command.run]
    split
    · next hc => exact h.create hc
    · exact h
  | update name id fields =>
    rw [Command.run]
    split
    · next hu => exact h.update? hu
    · exact h
  | find | count | load | records | names => exact h

end Consistent

theorem consistent_loadInto {entries : List (String × List Document)} (h : db.Consistent)
    (hl : Dataset.loadInto db entries = .ok next) : next.Consistent := by
  induction entries generalizing db with
  | nil => exact Except.ok.inj hl ▸ h
  | cons entry rest ih =>
    obtain ⟨c, hc, hrest⟩ := bind_eq_ok_iff.1 hl
    exact ih (h.put (Collection.consistent_ofRecords hc)) hrest

theorem Reachable.consistent (h : db.Reachable) : db.Consistent := by
  induction h with
  | empty => exact consistent_empty
  | load hl => exact consistent_loadInto consistent_empty hl
  | run command _ ih => exact ih.run command

/-- In every reachable database, records, index and sequence of a collection agree: each record
starts with its identifier, no two records share one, the index leads from each identifier to its
record and nowhere else, a lookup finds the one record that carries the identifier, and the
sequence goes on from the largest. -/
theorem reachable_invariant (h : db.Reachable) (hc : db.collections[name]? = some c) :
    (∀ record ∈ c.records, ∃ id, 0 < id ∧ id < maxId ∧
      record.head? = some (idField, idValue id) ∧ recordId? record = some id) ∧
    c.ids.Nodup ∧
    (∀ id position : Nat, c.positions[id]? = some position ↔
      ∃ record, c.records[position]? = some record ∧ recordId? record = some id) ∧
    (∀ id position : Nat, c.positions[id]? = some position → position < c.records.size) ∧
    (∀ id record, c.get? id = some record ↔ record ∈ c.records ∧ recordId? record = some id ∧
      ∀ other ∈ c.records, recordId? other = some id → other = record) ∧
    c.nextId = c.ids.max?.getD 0 + 1 := by
  have hcons := h.consistent name c hc
  have hlookup (id : Nat) (record : Document) :
      c.get? id = some record ↔ record ∈ c.records ∧ recordId? record = some id :=
    hcons.get?_eq_some_iff
  have hnext : c.nextId = c.ids.max?.getD 0 + 1 := by
    rw [hcons.nextId_eq, Collection.largestId_eq_max?, Collection.ids]
  refine ⟨?_, hcons.nodup_ids, ?_, fun _ _ hp => hcons.position_lt hp, ?_, hnext⟩
  · intro record hr
    obtain ⟨id, fields, h0, hlt, rfl⟩ := hcons.stored_form record hr
    exact ⟨id, h0, hlt, rfl, recordId?_stored h0 (Nat.le_of_lt hlt) fields⟩
  · intro id position
    rw [hcons.position_iff, Collection.idAt?_eq_some_iff]
  · intro id record
    constructor
    · intro hget
      obtain ⟨hr, hid⟩ := (hlookup id record).1 hget
      refine ⟨hr, hid, fun other hother hsame => ?_⟩
      -- both records are what the lookup finds
      have hfound := (hlookup id other).2 ⟨hother, hsame⟩
      exact Option.some.inj (hfound.symm.trans hget)
    · rintro ⟨hr, hid, -⟩
      exact (hlookup id record).2 ⟨hr, hid⟩

/-- A loaded record with an identifier, one without, and one that is created after them. -/
theorem reachable_invariant_loaded : ∃ start c,
    (Dataset.empty.add "Content" [[("name", .null)], [("id", .string "5")]]).load = .ok start ∧
    ((Command.create "Content" [("id", .int32 1)]).run start).2.collections["Content"]? = some c ∧
    c.ids = [5, 6, 7] ∧ c.ids.Nodup ∧ c.nextId = 8 := by
  have hrun : ∃ start c,
      (Dataset.empty.add "Content" [[("name", .null)], [("id", .string "5")]]).load = .ok start ∧
      ((Command.create "Content" [("id", .int32 1)]).run start).2.collections["Content"]? =
        some c ∧ c.ids = [5, 6, 7] :=
    ⟨_, _, rfl, rfl, by decide⟩
  obtain ⟨start, c, hload, hc, hids⟩ := hrun
  have h := reachable_invariant (.run (.create "Content" [("id", .int32 1)]) (.load hload)) hc
  have hnext : c.nextId = 8 := by
    rw [h.2.2.2.2.2, hids]
    rfl
  exact ⟨start, c, hload, hc, hids, h.2.1, hnext⟩

end Database

end DocumentStore
