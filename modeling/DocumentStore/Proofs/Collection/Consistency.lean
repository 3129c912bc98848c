import DocumentStore.Proofs.Identifier
import Mathlib.Data.List.Basic

/-!
# The invariant of a collection

A collection keeps three pieces of state that say the same thing: the records in their order, the
index from identifiers to positions, and the sequence. `Collection.Consistent` is their agreement.

* `Indexed` is the part that concerns records and index; it holds at every moment of loading, while
  the sequence already stands behind records that are yet to be placed;
* `Consistent` adds that the sequence goes on from the largest stored identifier;
* both are kept by `push`, `create?`, `replace?` and `update?`.
-/

namespace DocumentStore.Collection

/-! ## The invariant -/

/-- The identifiers that the records carry, in order. -/
def ids (c : Collection) : List Nat := c.records.toList.filterMap recordId?

/-- The identifier that the record at a place carries. -/
def idAt? (c : Collection) (position : Nat) : Option Nat :=
  (c.records[position]?).bind recordId?

/-- Every record is in its stored form, and the index leads from each identifier that a record
carries to the place of that record, and from no other. -/
structure Indexed (c : Collection) : Prop where
  stored_form : ∀ record ∈ c.records,
    ∃ id fields, 0 < id ∧ id < maxId ∧ record = stored id fields
  position_iff : ∀ id position, c.positions[id]? = some position ↔ c.idAt? position = some id

/-- The records are indexed, and the sequence goes on from the largest identifier. -/
structure Consistent (c : Collection) : Prop extends c.Indexed where
  nextId_eq : c.nextId = largestId c.records.toList + 1

/-! ## The largest identifier -/

theorem foldl_max_lt_iff {numbers : List Nat} {first bound : Nat} :
    numbers.foldl max first < bound ↔ first < bound ∧ ∀ n ∈ numbers, n < bound := by
  induction numbers generalizing first with
  | nil => simp
  | cons n rest ih =>
    rw [List.foldl_cons, ih, Nat.max_lt, List.forall_mem_cons, and_assoc]

/-- The largest identifier lies below a bound when all identifiers do. -/
theorem largestId_lt_iff {records : List Document} {bound : Nat} :
    largestId records < bound ↔ 0 < bound ∧ ∀ id ∈ records.filterMap recordId?, id < bound :=
  foldl_max_lt_iff

/-- No identifier lies beyond the largest integer. -/
theorem largestId_le (records : List Document) : largestId records ≤ maxId := by
  refine Nat.le_of_lt_succ (largestId_lt_iff.2 ⟨by decide, fun id hid => ?_⟩)
  obtain ⟨record, -, hr⟩ := List.mem_filterMap.1 hid
  exact Nat.lt_succ_of_le (recordId?_bounds hr).2

theorem largestId_append (front back : List Document) :
    largestId (front ++ back) = (back.filterMap recordId?).foldl max (largestId front) := by
  unfold largestId
  rw [List.filterMap_append, List.foldl_append]

theorem largestId_eq_max? (records : List Document) :
    largestId records = (records.filterMap recordId?).max?.getD 0 := by
  unfold largestId
  cases records.filterMap recordId? with
  | nil => rfl
  | cons id rest => rw [List.foldl_cons, Nat.zero_max, List.max?_cons', Option.getD_some]

/-! ## What an indexed collection looks like -/

theorem mem_ids {c : Collection} {id : Nat} :
    id ∈ c.ids ↔ ∃ record ∈ c.records, recordId? record = some id := by
  simp [ids]

theorem idAt?_eq_some_iff {c : Collection} {position id : Nat} :
    c.idAt? position = some id ↔
      ∃ record, c.records[position]? = some record ∧ recordId? record = some id :=
  Option.bind_eq_some_iff

/-- The identifiers are those that are found at some place. -/
theorem mem_ids_iff_idAt? {c : Collection} {id : Nat} :
    id ∈ c.ids ↔ ∃ position, c.idAt? position = some id := by
  simp only [mem_ids, idAt?_eq_some_iff, Array.mem_iff_getElem?]
  constructor
  · rintro ⟨record, ⟨position, hrec⟩, hid⟩
    exact ⟨position, record, hrec, hid⟩
  · rintro ⟨position, record, hrec, hid⟩
    exact ⟨record, ⟨position, hrec⟩, hid⟩

/-- A stored record is in its stored form already. -/
theorem stored_stored (id other : Nat) (fields : Document) :
    stored id (stored other fields) = stored id fields := by
  simp [stored, Fields.without]

namespace Indexed

variable {c d : Collection} {id position : Nat} {record fields : Document}

/-- Every stored record carries an identifier from which the sequence can go on. -/
theorem exists_recordId (h : c.Indexed) (hr : record ∈ c.records) :
    ∃ id, 0 < id ∧ id < maxId ∧ recordId? record = some id := by
  obtain ⟨id, fields, h0, hlt, rfl⟩ := h.stored_form record hr
  exact ⟨id, h0, hlt, recordId?_stored h0 (by omega) fields⟩

theorem bounds_of_mem_ids (h : c.Indexed) (hid : id ∈ c.ids) : 0 < id ∧ id < maxId := by
  obtain ⟨record, hr, hrid⟩ := mem_ids.1 hid
  obtain ⟨other, h0, hlt, hother⟩ := h.exists_recordId hr
  rw [hrid, Option.some.injEq] at hother
  omega

/-- The index never leads out of the records. -/
theorem position_lt (h : c.Indexed) (hp : c.positions[id]? = some position) :
    position < c.records.size := by
  obtain ⟨record, hrec, -⟩ := idAt?_eq_some_iff.1 ((h.position_iff id position).1 hp)
  exact (Array.getElem?_eq_some_iff.1 hrec).1

/-- The index holds exactly the identifiers that records carry. -/
theorem mem_positions_iff (h : c.Indexed) : id ∈ c.positions ↔ id ∈ c.ids := by
  rw [Std.ExtTreeMap.mem_iff_isSome_getElem?, Option.isSome_iff_exists, mem_ids_iff_idAt?]
  exact exists_congr fun position => h.position_iff id position

/-- No two records carry the same identifier. -/
theorem nodup_ids (h : c.Indexed) : c.ids.Nodup := by
  unfold ids List.Nodup
  rw [List.pairwise_filterMap, List.pairwise_iff_getElem]
  intro i j hi hj hij id hid other hother heq
  subst heq
  -- both places are the one that the index holds for the identifier
  have h₁ := (h.position_iff id i).2 (idAt?_eq_some_iff.2 ⟨_, Array.getElem?_eq_getElem hi, hid⟩)
  have h₂ := (h.position_iff id j).2
    (idAt?_eq_some_iff.2 ⟨_, Array.getElem?_eq_getElem hj, hother⟩)
  rw [h₁, Option.some.injEq] at h₂
  omega

/-- Looking an identifier up finds the record that carries it. -/
theorem get?_eq_some_iff (h : c.Indexed) :
    c.get? id = some record ↔ record ∈ c.records ∧ recordId? record = some id := by
  unfold Collection.get?
  rw [Option.bind_eq_some_iff]
  constructor
  · rintro ⟨position, hp, hrec⟩
    obtain ⟨other, hother, hid⟩ := idAt?_eq_some_iff.1 ((h.position_iff id position).1 hp)
    rw [hrec, Option.some.injEq] at hother
    exact ⟨Array.mem_of_getElem? hrec, hother ▸ hid⟩
  · rintro ⟨hr, hid⟩
    obtain ⟨position, hrec⟩ := Array.mem_iff_getElem?.1 hr
    exact ⟨position, (h.position_iff id position).2 (idAt?_eq_some_iff.2 ⟨record, hrec, hid⟩), hrec⟩

/-- Records and index do not depend on the sequence. -/
theorem withNextId (h : c.Indexed) (n : Nat) : ({ c with nextId := n } : Collection).Indexed :=
  ⟨h.stored_form, h.position_iff⟩

/-- An indexed collection is given by its records and its sequence. -/
theorem ext (hc : c.Indexed) (hd : d.Indexed) (hrecords : c.records = d.records)
    (hnext : c.nextId = d.nextId) : c = d := by
  have hpositions : c.positions = d.positions := by
    refine Std.ExtTreeMap.ext_getElem? fun id => Option.ext fun position => ?_
    rw [hc.position_iff, hd.position_iff, idAt?, idAt?, hrecords]
  cases c
  cases d
  simp_all

theorem get?_eq_none_iff (h : c.Indexed) : c.get? id = none ↔ id ∉ c.ids := by
  rw [Option.eq_none_iff_forall_not_mem]
  simp only [Option.mem_def, h.get?_eq_some_iff, mem_ids, not_exists]

/-- The row of identifiers has one for each record, in order. -/
theorem map_recordId? (h : c.Indexed) : c.records.toList.map recordId? = c.ids.map some := by
  rw [ids, List.map_filterMap, ← List.filterMap_eq_map]
  refine List.filterMap_congr fun record hr => ?_
  obtain ⟨id, -, -, hid⟩ := h.exists_recordId (Array.mem_toList_iff.1 hr)
  rw [Function.comp_apply, hid]
  rfl

/-- The records of a collection are those that its identifiers are looked up as. -/
theorem map_get?_ids (h : c.Indexed) :
    c.ids.map c.get? = c.records.toList.map some := by
  unfold ids
  rw [List.map_filterMap, ← List.filterMap_eq_map]
  refine List.filterMap_congr fun record hr => ?_
  obtain ⟨id, -, -, hid⟩ := h.exists_recordId (Array.mem_toList_iff.1 hr)
  have hget := h.get?_eq_some_iff.2 ⟨Array.mem_toList_iff.1 hr, hid⟩
  rw [hid, Option.map_some, hget]
  rfl

end Indexed

/-- The sequence stands one past the largest identifier. -/
theorem Consistent.nextId_eq_max? {c : Collection} (h : c.Consistent) :
    c.nextId = c.ids.max?.getD 0 + 1 := by
  rw [h.nextId_eq, largestId_eq_max?, ids]

end DocumentStore.Collection
