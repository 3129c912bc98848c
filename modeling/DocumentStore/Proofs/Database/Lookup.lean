import DocumentStore.Hydration
import DocumentStore.Proofs.Database.Reachable

/-!
# Looking up and scanning

A record can be found through the index, by `load?`, or by a scan for a condition on its
identifier. The first reads a value with `coerceId` and the second with loose equality.

* `agrees_int64`: an integer is loosely equal to exactly the values from which `coerceId` reads it;
* `select_matching_id`: the scan finds what the lookup finds, whatever the value;
* `load?_iff_find` puts this together for lookups, updates, counts and hydrated results.
-/

namespace DocumentStore

/-! ## Loose equality with an integer -/

theorem Number.equal_int (m : Number) (n : Int64) : m.equal (.int n) = (m.asInt? == some n) := by
  cases m with
  | int m => simp [equal, asInt?]
  | float x => rfl

theorem Number.int_equal (n : Int64) (m : Number) : (int n).equal m = (m.asInt? == some n) := by
  cases m with
  | int m =>
    rw [equal_int]
    simp [asInt?, Bool.beq_comm]
  | float x => rfl

/-- An integer loosely equals the values behind which there is a number that holds it. -/
theorem Value.agrees_int64 (n : Int64) (value : Value) :
    (Value.int64 n).agrees value = ((idNumber? value).bind Number.asInt? == some n) := by
  cases value with
  | string text =>
    show Number.sameReading (Number.parse text) (some (.int n)) = _
    rw [idNumber?]
    cases Number.parse text with
    | none => rfl
    | some m => exact m.equal_int n
  | int32 m => exact Number.int_equal n (.int m.toInt64)
  | int64 m => exact Number.int_equal n (.int m)
  | double x => rfl
  | null | undefined | boolean | array | document | scopedCode | atom => rfl

/-! ## The condition on the identifier -/

theorem Filter.admits_matching (field : String) (expected : Value) (record : Document) :
    (matching field expected).admits record = condition field expected record := by
  simp [admits, matching, Filter.and, empty, Fields.insert]

/-- A stored record meets the condition when the value names its identifier. -/
theorem condition_stored {id : Nat} (h0 : 0 < id) (hle : id ≤ maxId) (value : Value)
    (fields : Document) :
    Filter.condition idField value (Collection.stored id fields) =
      (coerceId value == some id) := by
  have hread : (coerceId value == some id) =
      ((idNumber? value).bind Number.asInt? == some (Int64.ofNat id)) := by
    rw [Bool.eq_iff_iff, beq_iff_eq, beq_iff_eq, coerceId_eq_some_iff]
    exact ⟨fun h => h.2.2, fun h => ⟨h0, hle, h⟩⟩
  unfold Filter.condition
  -- a stored identifier is no array, so the condition is loose equality with it
  rw [Collection.get?_stored, if_pos rfl, hread]
  exact Value.agrees_int64 (Int64.ofNat id) value

/-- Where an image occurs at most once, filtering by it is finding it. -/
theorem filter_eq_toList_find? {α β : Type} [BEq β] [LawfulBEq β] {l : List α} {f : α → Option β}
    (h : (l.filterMap f).Nodup) (b : β) :
    l.filter (fun a => f a == some b) = (l.find? fun a => f a == some b).toList := by
  induction l with
  | nil => rfl
  | cons a l ih =>
    by_cases ha : f a = some b
    · -- the image occurs no second time, so nothing behind `a` passes
      rw [List.filterMap_cons_some ha, List.nodup_cons] at h
      have hnone : l.filter (fun a => f a == some b) = [] := by
        rw [List.filter_eq_nil_iff]
        intro x hx hb
        exact h.1 (List.mem_filterMap.2 ⟨x, hx, by simpa using hb⟩)
      rw [List.filter_cons_of_pos (by simp [ha]), List.find?_cons_of_pos (by simp [ha]), hnone]
      rfl
    · have hrest : (l.filterMap f).Nodup := by
        rw [List.filterMap_cons] at h
        split at h
        · exact h
        · exact (List.nodup_cons.1 h).2
      rw [List.filter_cons_of_neg (by simp [ha]), List.find?_cons_of_neg (by simp [ha]), ih hrest]

namespace Collection

variable {c : Collection}

/-- The lookup is the search for the record that carries the identifier. -/
theorem Indexed.get?_eq_find? (h : c.Indexed) (id : Nat) :
    c.get? id = c.records.toList.find? fun record => recordId? record == some id := by
  cases hfind : c.records.toList.find? fun record => recordId? record == some id with
  | none =>
    rw [h.get?_eq_none_iff, mem_ids]
    rintro ⟨record, hr, hid⟩
    have := List.find?_eq_none.1 hfind record (Array.mem_toList_iff.2 hr)
    simp [hid] at this
  | some record =>
    have hid := List.find?_some hfind
    exact h.get?_eq_some_iff.2
      ⟨Array.mem_toList_iff.1 (List.mem_of_find?_eq_some hfind), by simpa using hid⟩

/-- An update succeeds where there is a record to update. -/
theorem isSome_update? (id : Nat) (fields : Document) :
    (c.update? id fields).isSome = (c.get? id).isSome := by
  unfold update?
  cases hget : c.get? id with
  | none => rfl
  | some record =>
    obtain ⟨position, hp, -⟩ := Option.bind_eq_some_iff.1 hget
    simp [replace?, hp]

end Collection

/-! ## Scan and lookup -/

namespace Database

variable {db : Database}

theorem find_ofFilter (db : Database) (name : String) (filter : Filter) :
    db.find name (Query.ofFilter filter) = db.select name filter := by
  have hresolve : db.resolve [] = fun record => record := by
    funext record
    rw [resolve]
  rw [find, Query.ofFilter, hresolve, List.map_id']

theorem count_eq_length_select (db : Database) (name : String) (filter : Filter) :
    db.count name filter = (db.select name filter).length :=
  List.countP_eq_length_filter

/-- A scan for an identifier finds what the lookup finds: one record, or none. -/
theorem select_matching_id (h : db.Reachable) (name : String) (value : Value) :
    db.select name (Filter.matching idField value) = (db.load? name value).toList := by
  have hc := (h.consistent.collection name).toIndexed
  have hcondition : ∀ record ∈ db.records name,
      (Filter.matching idField value).admits record = (recordId? record == coerceId value) := by
    intro record hr
    obtain ⟨id, fields, h0, hlt, rfl⟩ := hc.stored_form record (Array.mem_toList_iff.1 hr)
    have hle := Nat.le_of_lt hlt
    rw [Filter.admits_matching, condition_stored h0 hle, recordId?_stored h0 hle]
    exact Bool.beq_comm
  unfold select load?
  rw [List.filter_congr hcondition]
  cases hid : coerceId value with
  | none =>
    -- every stored record carries an identifier, so none is equal to the missing one
    refine List.filter_eq_nil_iff.2 fun record hr => ?_
    obtain ⟨id, -, -, hsome⟩ := hc.exists_recordId (Array.mem_toList_iff.1 hr)
    simp [hsome]
  | some id =>
    rw [Option.bind_some, hc.get?_eq_find? id]
    exact filter_eq_toList_find? hc.nodup_ids id

/-- An update succeeds for exactly the values that a lookup finds a record for. -/
theorem isSome_update?_eq (db : Database) (name : String) (value : Value) (fields : Document) :
    (db.update? name value fields).isSome = (db.load? name value).isSome := by
  rw [update?_eq_bind, load?]
  cases coerceId value with
  | none => rfl
  | some id =>
    rw [Option.bind_some, Option.bind_some, Option.isSome_map, Collection.isSome_update?]

/-- Hydrating the records of a scan is hydrating what the lookup finds. -/
theorem fetch_matching_id {β ε : Type} (h : db.Reachable) (hydrate : Hydrator β ε) (name : String)
    (value : Value) :
    db.fetch hydrate name (Query.ofFilter (Filter.matching idField value)) =
      (db.fetchOne hydrate name value).map Option.toList := by
  unfold fetch fetchOne
  rw [find_ofFilter, select_matching_id h]
  cases db.load? name value with
  | none => rfl
  | some record =>
    rw [Option.toList_some, List.mapM_cons, List.mapM_nil]
    show _ = (do return some (← hydrate name record)).map Option.toList
    cases hydrate name record <;> rfl

/-- The lookup by an identifier and the scan for it agree on every value, of whatever kind: on the
record, on whether there is one to update, and on what a hydrator makes of it. -/
theorem load?_iff_find (h : db.Reachable) (name : String) (value : Value) :
    (∀ record, db.load? name value = some record ↔
      db.find name (Query.ofFilter (Filter.matching idField value)) = [record]) ∧
    (db.load? name value = none ↔
      db.find name (Query.ofFilter (Filter.matching idField value)) = []) ∧
    (db.find name (Query.ofFilter (Filter.matching idField value))).length ≤ 1 ∧
    (∀ fields, (db.update? name value fields).isSome ↔
      db.count name (Filter.matching idField value) = 1) ∧
    (∀ {β ε : Type} (hydrate : Hydrator β ε),
      (∀ b, db.fetchOne hydrate name value = .ok (some b) ↔
        db.fetch hydrate name (Query.ofFilter (Filter.matching idField value)) = .ok [b]) ∧
      (db.fetchOne hydrate name value = .ok none ↔
        db.fetch hydrate name (Query.ofFilter (Filter.matching idField value)) = .ok []) ∧
      (∀ fault, db.fetchOne hydrate name value = .error fault ↔
        db.fetch hydrate name (Query.ofFilter (Filter.matching idField value)) = .error fault)) := by
  have hscan := select_matching_id h name value
  rw [find_ofFilter, hscan]
  refine ⟨?_, ?_, ?_, ?_, ?_⟩
  · intro record
    cases db.load? name value <;> simp
  · cases db.load? name value <;> simp
  · cases db.load? name value <;> simp
  · intro fields
    rw [isSome_update?_eq, count_eq_length_select, hscan]
    cases db.load? name value <;> simp
  · intro β ε hydrate
    rw [fetch_matching_id h]
    rcases db.fetchOne hydrate name value with fault | _ | b <;>
      simp [Except.map, Option.toList]

/-- A record found under an identifier that is written as a decimal. -/
theorem load?_iff_find_decimal : ∃ db record,
    ((Command.create "Content" [("name", .null)]).run empty).2 = db ∧ db.Reachable ∧
    db.load? "Content" (.string "1.0") = some record ∧
    db.find "Content" (Query.ofFilter (Filter.matching idField (.string "1.0"))) = [record] := by
  have hreach : ((Command.create "Content" [("name", .null)]).run empty).2.Reachable :=
    .run _ .empty
  have hload : ∃ record, ((Command.create "Content" [("name", .null)]).run empty).2.load? "Content"
      (.string "1.0") = some record := by
    have hid : coerceId (.string "1.0") = some 1 := by decide +kernel
    rw [load?, hid]
    exact ⟨_, rfl⟩
  obtain ⟨record, hrecord⟩ := hload
  exact ⟨_, record, rfl, hreach, hrecord, ((load?_iff_find hreach _ _).1 record).1 hrecord⟩

end Database

end DocumentStore
