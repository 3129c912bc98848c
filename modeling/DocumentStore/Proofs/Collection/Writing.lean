import DocumentStore.Proofs.Collection.Consistency
import DocumentStore.Proofs.Fields

/-!
# What writes do to a collection

One law for each operation, and that it keeps the invariant:

* `push` appends a record, its identifier and its place in the index;
* `create?` is a push under the next identifier, which no record carries yet;
* `replace?` and `update?` change one record and leave the row of identifiers as it is;
* `get?_push`, `get?_replace?` and `get?_update?` say what a lookup finds afterwards.
-/

namespace DocumentStore.Collection

variable {c d : Collection} {id : Nat} {record fields : Document}

/-! ## The empty collection -/

theorem consistent_empty : empty.Consistent where
  stored_form := by simp [empty]
  position_iff := by simp [empty, idAt?]
  nextId_eq := rfl

/-! ## Appending -/

theorem toList_records_push (c : Collection) (id : Nat) (fields : Document) :
    (c.push id fields).records.toList = c.records.toList ++ [stored id fields] := by
  simp [push]

theorem ids_push (h0 : 0 < id) (hle : id ≤ maxId) (fields : Document) :
    (c.push id fields).ids = c.ids ++ [id] := by
  unfold ids
  rw [toList_records_push, List.filterMap_append]
  simp [recordId?_stored h0 hle]

theorem idAt?_push (h0 : 0 < id) (hle : id ≤ maxId) (fields : Document) (position : Nat) :
    (c.push id fields).idAt? position =
      if position = c.records.size then some id else c.idAt? position := by
  unfold idAt? push
  rw [Array.getElem?_push]
  split
  · rw [Option.bind_some, recordId?_stored h0 hle]
  · rfl

/-- A record may be appended under any identifier that no record carries yet. -/
theorem Indexed.push (h : c.Indexed) (h0 : 0 < id) (hlt : id < maxId) (hnew : id ∉ c.ids)
    (fields : Document) : (c.push id fields).Indexed where
  stored_form := by
    intro record hr
    rw [Collection.push, Array.mem_push] at hr
    rcases hr with hr | rfl
    · exact h.stored_form record hr
    · exact ⟨id, fields, h0, hlt, rfl⟩
  position_iff := by
    intro other position
    rw [idAt?_push h0 (Nat.le_of_lt hlt), Collection.push, Std.ExtTreeMap.getElem?_insert]
    by_cases hid : id = other
    · -- no record carries the identifier yet, so its one place is the new one
      subst hid
      rw [if_pos (by simp), Option.some.injEq]
      have hnone : c.idAt? position ≠ some id := fun hc =>
        hnew (mem_ids_iff_idAt?.2 ⟨position, hc⟩)
      by_cases hp : position = c.records.size
      · simp [hp]
      · simp [hp, hnone, Ne.symm hp]
    · rw [if_neg (by simpa using hid), h.position_iff]
      -- the new place lies beyond all places of the index
      by_cases hp : position = c.records.size
      · have hnone : c.idAt? position ≠ some other := fun hc => by
          have := h.position_lt ((h.position_iff other position).2 hc)
          omega
        simp [hp, hid] at hnone ⊢
        exact hnone
      · rw [if_neg hp]

/-! ## Creating -/

/-- A create hands out the next identifier and moves the sequence on by one. -/
theorem create?_eq_some_iff : c.create? fields = some (id, d) ↔
    c.nextId ≠ maxId ∧ id = c.nextId ∧
      d = { c.push c.nextId fields with nextId := c.nextId + 1 } := by
  unfold create?
  split
  · next hmax => simp [hmax]
  · next hmax => simp [hmax, eq_comm]

namespace Consistent

/-- The next identifier is positive and not beyond the largest integer. -/
theorem nextId_bounds (h : c.Consistent) : 0 < c.nextId ∧ c.nextId ≤ maxId := by
  have hlt : largestId c.records.toList < maxId :=
    largestId_lt_iff.2 ⟨by decide, fun id hid => (h.toIndexed.bounds_of_mem_ids hid).2⟩
  have := h.nextId_eq
  omega

/-- All stored identifiers lie below the next one. -/
theorem lt_nextId (h : c.Consistent) (hid : id ∈ c.ids) : id < c.nextId := by
  have hlt : largestId c.records.toList < c.nextId := by rw [h.nextId_eq]; exact Nat.lt_succ_self _
  exact (largestId_lt_iff.1 hlt).2 id hid

theorem create? (h : c.Consistent) (hc : c.create? fields = some (id, d)) : d.Consistent := by
  obtain ⟨hmax, -, rfl⟩ := create?_eq_some_iff.1 hc
  have hb := h.nextId_bounds
  have hnew : c.nextId ∉ c.ids := fun hid => Nat.lt_irrefl _ (h.lt_nextId hid)
  have hp := h.toIndexed.push hb.1 (by omega) hnew fields
  refine ⟨hp.withNextId _, ?_⟩
  show c.nextId + 1 = largestId (c.push c.nextId fields).records.toList + 1
  rw [toList_records_push, largestId_append]
  -- the identifier handed out is one more than the largest
  have := h.nextId_eq
  simp [recordId?_stored hb.1 hb.2]
  omega

end Consistent

/-! ## Writing over a record -/

/-- A record is found and written over in its place. -/
theorem replace?_eq_some_iff : c.replace? id fields = some d ↔ ∃ position,
    c.positions[id]? = some position ∧
      d = { c with records := c.records.setIfInBounds position (stored id fields) } := by
  unfold replace?
  rw [Option.map_eq_some_iff]
  simp [eq_comm]

/-- An update writes the merged fields over the record that it finds. -/
theorem update?_eq_some_iff : c.update? id fields = some d ↔ ∃ record,
    c.get? id = some record ∧ c.replace? id (record.merge (fields.without idField)) = some d := by
  unfold update?
  rw [Option.bind_eq_some_iff]

namespace Indexed

/-- Writing over a record leaves the identifier at every place as it is. -/
theorem idAt?_replace? (h : c.Indexed) (hr : c.replace? id fields = some d) (place : Nat) :
    d.idAt? place = c.idAt? place := by
  obtain ⟨position, hp, rfl⟩ := replace?_eq_some_iff.1 hr
  have hlt := h.position_lt hp
  have hc := (h.position_iff id position).1 hp
  obtain ⟨h0, hmax⟩ := h.bounds_of_mem_ids (mem_ids_iff_idAt?.2 ⟨position, hc⟩)
  by_cases hplace : position = place
  · subst hplace
    rw [hc, idAt?, Array.getElem?_setIfInBounds, if_pos rfl, if_pos hlt, Option.bind_some,
      recordId?_stored h0 (Nat.le_of_lt hmax)]
  · rw [idAt?, Array.getElem?_setIfInBounds, if_neg hplace, idAt?]

theorem replace? (h : c.Indexed) (hr : c.replace? id fields = some d) : d.Indexed := by
  have hsame := h.idAt?_replace? hr
  obtain ⟨position, hp, rfl⟩ := replace?_eq_some_iff.1 hr
  have hc := (h.position_iff id position).1 hp
  refine ⟨fun record hmem => ?_, fun other place => ?_⟩
  · rcases Array.mem_or_eq_of_mem_setIfInBounds hmem with hmem | rfl
    · exact h.stored_form record hmem
    · obtain ⟨h0, hlt⟩ := h.bounds_of_mem_ids (mem_ids_iff_idAt?.2 ⟨position, hc⟩)
      exact ⟨id, fields, h0, hlt, rfl⟩
  · rw [hsame place]
    exact h.position_iff other place

/-- Nor does it change the row of identifiers. -/
theorem ids_replace? (h : c.Indexed) (hr : c.replace? id fields = some d) : d.ids = c.ids := by
  have hsize : d.records.size = c.records.size := by
    obtain ⟨position, hp, rfl⟩ := replace?_eq_some_iff.1 hr
    exact Array.size_setIfInBounds
  have hmap : d.records.toList.map recordId? = c.records.toList.map recordId? := by
    refine List.ext_getElem (by simp [hsize]) fun place hd hc => ?_
    have hsame := h.idAt?_replace? hr place
    simp only [List.length_map, Array.length_toList] at hd hc
    rw [idAt?, idAt?, Array.getElem?_eq_getElem hd, Array.getElem?_eq_getElem hc] at hsame
    simpa using hsame
  -- the records changed, but not the identifier at any place
  have hids (e : Collection) : e.ids = (e.records.toList.map recordId?).filterMap fun id => id := by
    rw [List.filterMap_map]
    rfl
  rw [hids, hids, hmap]

end Indexed

namespace Consistent

theorem replace? (h : c.Consistent) (hr : c.replace? id fields = some d) : d.Consistent := by
  refine ⟨h.toIndexed.replace? hr, ?_⟩
  have hids := h.toIndexed.ids_replace? hr
  have hnext : d.nextId = c.nextId := by
    obtain ⟨position, hp, rfl⟩ := replace?_eq_some_iff.1 hr
    rfl
  rw [hnext, h.nextId_eq]
  exact congrArg (fun ids => ids.foldl max 0 + 1) hids.symm

theorem update? (h : c.Consistent) (hu : c.update? id fields = some d) : d.Consistent := by
  obtain ⟨record, -, hr⟩ := update?_eq_some_iff.1 hu
  exact h.replace? hr

end Consistent

/-! ## Looking up after a write -/

/-- Fields are merged into a stored record as into the fields that it was made from. -/
theorem stored_merge (id : Nat) (fields later : Document) :
    stored id ((stored id fields).merge (later.without idField)) =
      stored id (fields.merge later) := by
  have hfields : (stored id fields).without idField = fields.without idField := by
    simp [stored, Fields.without]
  show (idField, idValue id) :: ((stored id fields).merge (later.without idField)).without idField =
    (idField, idValue id) :: (fields.merge later).without idField
  rw [Fields.without_merge, hfields, Fields.without_without, ← Fields.without_merge]

namespace Indexed

/-- An appended record is found under its identifier, and all others as before. -/
theorem get?_push (h : c.Indexed) (id : Nat) (fields : Document) (other : Nat) :
    (c.push id fields).get? other = if id = other then some (stored id fields) else c.get? other := by
  unfold Collection.get? Collection.push
  rw [Std.ExtTreeMap.getElem?_insert]
  by_cases hid : id = other
  · rw [if_pos (by simp [hid]), if_pos hid, Option.bind_some, Array.getElem?_push, if_pos rfl]
  · rw [if_neg (by simpa using hid), if_neg hid]
    cases hp : c.positions[other]? with
    | none => rfl
    | some position =>
      -- the index leads to a place before the new one
      have hne : position ≠ c.records.size := Nat.ne_of_lt (h.position_lt hp)
      rw [Option.bind_some, Option.bind_some, Array.getElem?_push, if_neg hne]

/-- A created record is found under the identifier that it was given, and all others as before. -/
theorem get?_create? (h : c.Indexed) (hc : c.create? fields = some (id, d)) (other : Nat) :
    d.get? other = if id = other then some (stored id fields) else c.get? other := by
  obtain ⟨-, rfl, rfl⟩ := create?_eq_some_iff.1 hc
  exact h.get?_push c.nextId fields other

/-- A record that is written over is found as it is written, and all others as before. -/
theorem get?_replace? (h : c.Indexed) (hr : c.replace? id fields = some d) (other : Nat) :
    d.get? other = if id = other then some (stored id fields) else c.get? other := by
  obtain ⟨position, hp, rfl⟩ := replace?_eq_some_iff.1 hr
  unfold Collection.get?
  by_cases hid : id = other
  · subst hid
    rw [if_pos rfl, hp, Option.bind_some, Array.getElem?_setIfInBounds, if_pos rfl,
      if_pos (h.position_lt hp)]
  · rw [if_neg hid]
    cases hother : c.positions[other]? with
    | none => rfl
    | some place =>
      -- no place carries two identifiers
      have hne : position ≠ place := by
        rintro rfl
        have hsame := ((h.position_iff id position).1 hp).symm.trans
          ((h.position_iff other position).1 hother)
        exact hid (Option.some.inj hsame)
      rw [Option.bind_some, Option.bind_some, Array.getElem?_setIfInBounds, if_neg hne]

/-- An update merges the fields into the record that it finds, and all others are as before. -/
theorem get?_update? (h : c.Indexed) (hu : c.update? id fields = some d) (other : Nat) :
    d.get? other = if id = other
      then (c.get? id).map fun record => stored id (record.merge (fields.without idField))
      else c.get? other := by
  obtain ⟨record, hget, hr⟩ := update?_eq_some_iff.1 hu
  rw [h.get?_replace? hr, hget, Option.map_some]

end Indexed

end DocumentStore.Collection
