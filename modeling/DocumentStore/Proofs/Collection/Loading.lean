import DocumentStore.Proofs.Collection.Writing
import DocumentStore.Proofs.Except

/-!
# Loading records into a collection

`Collection.ofRecords` works in two rounds: it places the records that carry identifiers and then
numbers the others.

* `place_succeeds_iff` says when the first round goes through, `Indexed.place` what it leaves;
* `consistent_ofRecords`: what is loaded satisfies the invariant, from any mix of records;
* `records_ofRecords`: the records that are loaded, and the identifiers that they get;
* `ofRecords_records`: the records of a collection make that collection again.
-/

namespace DocumentStore

namespace Collection

variable {c d : Collection} {name : String} {records : List Document}

/-! ## The first round -/

/-- The records that carry identifiers, in the form in which they are stored. -/
def identified (records : List Document) : List Document :=
  records.filterMap fun record => (recordId? record).map fun id => stored id record

theorem identified_cons_none {record : Document} (hid : recordId? record = none) :
    identified (record :: records) = identified records := by
  unfold identified
  rw [List.filterMap_cons_none (by rw [hid]; rfl)]

theorem identified_cons_some {record : Document} {id : Nat} (hid : recordId? record = some id) :
    identified (record :: records) = stored id record :: identified records := by
  unfold identified
  rw [List.filterMap_cons_some (by rw [hid]; rfl)]

theorem filterMap_identified (records : List Document) :
    (identified records).filterMap recordId? = records.filterMap recordId? := by
  induction records with
  | nil => rfl
  | cons record rest ih =>
    cases hid : recordId? record with
    | none => rw [identified_cons_none hid, ih, List.filterMap_cons_none hid]
    | some id =>
      obtain ⟨h0, hle⟩ := recordId?_bounds hid
      rw [identified_cons_some hid, List.filterMap_cons_some (recordId?_stored h0 hle record), ih,
        List.filterMap_cons_some hid]

theorem Indexed.identified_records (h : c.Indexed) :
    identified c.records.toList = c.records.toList := by
  have hself : ∀ record ∈ c.records.toList,
      ((recordId? record).map fun id => stored id record) = some record := by
    intro record hr
    obtain ⟨id, fields, h0, hlt, rfl⟩ := h.stored_form record (Array.mem_toList_iff.1 hr)
    rw [recordId?_stored h0 (Nat.le_of_lt hlt), Option.map_some, stored_stored]
  rw [identified, List.filterMap_congr hself, List.filterMap_some]

theorem place_cons_none {record : Document} (hid : recordId? record = none) :
    place name c (record :: records) = place name c records := by
  rw [place, hid]

/-- A record that carries an identifier is placed, unless another one carries it already. -/
theorem Indexed.place_cons_some (h : c.Indexed) {record : Document} {id : Nat}
    (hid : recordId? record = some id) : Collection.place name c (record :: records) =
      if id ∈ c.ids then .error (.repeatedId id name)
      else Collection.place name (c.push id record) records := by
  have hcontains : c.positions.contains id = true ↔ id ∈ c.ids := h.mem_positions_iff
  simp only [Collection.place, hid, hcontains]

/-- The first round goes through exactly when no identifier occurs twice. -/
theorem place_succeeds_iff (name : String) (h : c.Indexed)
    (hlt : ∀ id ∈ records.filterMap recordId?, id < maxId) :
    (∃ d, place name c records = .ok d) ↔ (c.ids ++ records.filterMap recordId?).Nodup := by
  -- each record placed joins the identifiers that later ones are held against
  induction records generalizing c with
  | nil => simpa [place] using h.nodup_ids
  | cons record rest ih =>
    cases hid : recordId? record with
    | none =>
      rw [place_cons_none hid]
      rw [List.filterMap_cons_none hid] at hlt ⊢
      exact ih h hlt
    | some id =>
      rw [List.filterMap_cons_some hid, List.forall_mem_cons] at hlt
      obtain ⟨h0, hle⟩ := recordId?_bounds hid
      rw [h.place_cons_some hid, List.filterMap_cons_some hid, List.append_cons,
        ← ids_push h0 hle record]
      by_cases hmem : id ∈ c.ids
      · have hdup : ¬ (c.push id record).ids.Nodup := by
          rw [ids_push h0 hle]
          intro hn
          exact (List.nodup_append.1 hn).2.2 id hmem id (List.mem_singleton_self id) rfl
        rw [if_pos hmem]
        exact ⟨fun ⟨d, hd⟩ => (nomatch hd), fun hn => absurd (List.nodup_append.1 hn).1 hdup⟩
      · rw [if_neg hmem]
        exact ih (h.push h0 hlt.1 hmem record) hlt.2

/-- What the first round leaves: the records that carry identifiers, in order and indexed. The
sequence stands where it stood. -/
theorem Indexed.place (h : c.Indexed) (hlt : ∀ id ∈ records.filterMap recordId?, id < maxId)
    (hp : place name c records = .ok d) :
    d.Indexed ∧ d.nextId = c.nextId ∧
      d.records.toList = c.records.toList ++ identified records := by
  induction records generalizing c with
  | nil =>
    obtain rfl := Except.ok.inj hp
    exact ⟨h, rfl, (List.append_nil _).symm⟩
  | cons record rest ih =>
    cases hid : recordId? record with
    | none =>
      rw [List.filterMap_cons_none hid] at hlt
      rw [place_cons_none hid] at hp
      rw [identified_cons_none hid]
      exact ih h hlt hp
    | some id =>
      rw [List.filterMap_cons_some hid, List.forall_mem_cons] at hlt
      obtain ⟨h0, hle⟩ := recordId?_bounds hid
      rw [h.place_cons_some hid] at hp
      split at hp
      · cases hp
      · next hmem =>
        obtain ⟨hindexed, hnext, hrecords⟩ := ih (h.push h0 hlt.1 hmem record) hlt.2 hp
        refine ⟨hindexed, hnext, ?_⟩
        rw [hrecords, toList_records_push, identified_cons_some hid, List.append_assoc]
        rfl

/-! ## The second round -/

theorem number_cons_some {record : Document} {id : Nat} (hid : recordId? record = some id) :
    number name c (record :: records) = number name c records := by
  rw [number, hid, if_pos Option.isSome_some]

/-- A record that carries no identifier gets the next one, if another can follow that. -/
theorem number_cons_none {record : Document} (hid : recordId? record = none) :
    number name c (record :: records) =
      if c.nextId = maxId then .error (.noIdsLeft name)
      else number name { c.push c.nextId record with nextId := c.nextId + 1 } records := by
  rw [number, hid, if_neg (by simp), create?]
  by_cases hmax : c.nextId = maxId
  · rw [if_pos hmax, if_pos hmax]
  · rw [if_neg hmax, if_neg hmax]

/-- Numbering keeps the invariant, since each of its steps is a create. -/
theorem Consistent.number (h : c.Consistent) (hn : number name c records = .ok d) :
    d.Consistent := by
  induction records generalizing c with
  | nil => exact Except.ok.inj hn ▸ h
  | cons record rest ih =>
    cases hid : recordId? record with
    | some id =>
      rw [number_cons_some hid] at hn
      exact ih h hn
    | none =>
      rw [number_cons_none hid] at hn
      split at hn
      · cases hn
      · next hmax => exact ih (h.create? (create?_eq_some_iff.2 ⟨hmax, rfl, rfl⟩)) hn

/-- Records that carry identifiers are left to the first round. -/
theorem number_of_identified (hids : ∀ record ∈ records, (recordId? record).isSome) :
    number name c records = .ok c := by
  induction records with
  | nil => rfl
  | cons record rest ih =>
    rw [List.forall_mem_cons, Option.isSome_iff_exists] at hids
    obtain ⟨⟨id, hid⟩, hrest⟩ := hids
    rw [number_cons_some hid]
    exact ih hrest

/-! ## Both rounds -/

/-- The two rounds of a loading that succeeds. -/
theorem ofRecords_eq_ok_iff : ofRecords name records = .ok d ↔ largestId records ≠ maxId ∧
    ∃ placed, place name { empty with nextId := largestId records + 1 } records = .ok placed ∧
      number name placed records = .ok d := by
  unfold ofRecords
  dsimp only
  split
  · next hmax => simp [hmax]
  · next hmax => rw [bind_eq_ok_iff]; simp [hmax]

/-- No record of a loading carries the largest identifier. -/
theorem lt_maxId_of_mem (hmax : largestId records ≠ maxId) :
    ∀ id ∈ records.filterMap recordId?, id < maxId := by
  have hle := largestId_le records
  exact (largestId_lt_iff.1 (by omega)).2

/-- What the first round leaves of a whole list: the records that carry identifiers, and a sequence
that goes on from the largest of them. -/
theorem consistent_place (hmax : largestId records ≠ maxId)
    (hp : place name { empty with nextId := largestId records + 1 } records = .ok d) :
    d.Consistent ∧ d.nextId = largestId records + 1 ∧ d.records.toList = identified records := by
  obtain ⟨hindexed, hnext, hrecords⟩ :=
    (consistent_empty.withNextId _).place (lt_maxId_of_mem hmax) hp
  have hlargest : largestId d.records.toList = largestId records := by
    rw [hrecords, largestId, largestId, ← filterMap_identified records]
    rfl
  exact ⟨⟨hindexed, by rw [hnext, hlargest]⟩, hnext, hrecords⟩

/-- Whatever records a collection is loaded from, it satisfies the invariant. -/
theorem consistent_ofRecords (h : ofRecords name records = .ok d) : d.Consistent := by
  obtain ⟨hmax, placed, hp, hn⟩ := ofRecords_eq_ok_iff.1 h
  exact (consistent_place hmax hp).1.number hn

/-- The records of a collection make that collection again. -/
theorem ofRecords_records (h : c.Consistent) : ofRecords name c.records.toList = .ok c := by
  have hlt : ∀ id ∈ c.ids, id < maxId := fun id hid => (h.bounds_of_mem_ids hid).2
  have hmax : largestId c.records.toList ≠ maxId := by
    have := largestId_lt_iff.2 ⟨by decide, hlt⟩
    omega
  have hstart := consistent_empty.withNextId (largestId c.records.toList + 1)
  obtain ⟨placed, hp⟩ := (place_succeeds_iff name hstart hlt).2 h.nodup_ids
  obtain ⟨hindexed, hnext, hrecords⟩ := hstart.place hlt hp
  have hplaced : placed = c :=
    hindexed.ext h.toIndexed (Array.toList_inj.1 (by rw [hrecords, h.identified_records]; rfl))
      (by rw [hnext, h.nextId_eq])
  refine ofRecords_eq_ok_iff.2 ⟨hmax, placed, hp, ?_⟩
  rw [hplaced]
  -- all records are placed, and none is left to number
  refine number_of_identified fun record hr => ?_
  obtain ⟨id, -, -, hid⟩ := h.exists_recordId (Array.mem_toList_iff.1 hr)
  rw [hid]
  rfl

/-! ## What is refused -/

/-- The first round fails by an identifier that occurs again. -/
theorem place_eq_error {fault : Fault} (h : place name c records = .error fault) :
    ∃ id, fault = .repeatedId id name := by
  induction records generalizing c with
  | nil => cases h
  | cons record rest ih =>
    unfold place at h
    split at h
    · exact ih h
    · next id hid =>
      split at h
      · exact ⟨id, (Except.error.inj h).symm⟩
      · exact ih h

/-- The second round fails where the identifiers do not suffice. -/
theorem number_eq_error {fault : Fault} (h : number name c records = .error fault) :
    fault = .noIdsLeft name := by
  induction records generalizing c with
  | nil => cases h
  | cons record rest ih =>
    cases hid : recordId? record with
    | some id =>
      rw [number_cons_some hid] at h
      exact ih h
    | none =>
      rw [number_cons_none hid] at h
      split at h
      · exact (Except.error.inj h).symm
      · exact ih h

/-- Records are refused as the initial data of a database. -/
theorem kind_of_ofRecords_eq_error {fault : Fault} (h : ofRecords name records = .error fault) :
    fault.kind = .initialization := by
  unfold ofRecords at h
  dsimp only at h
  split at h
  · obtain rfl := Except.error.inj h
    rfl
  · rcases bind_eq_error_iff.1 h with hplace | ⟨placed, -, hnumber⟩
    · obtain ⟨id, rfl⟩ := place_eq_error hplace
      rfl
    · rw [number_eq_error hnumber]
      rfl

/-! ## What is loaded -/

/-- The records that carry no identifier. -/
def unidentified (records : List Document) : List Document :=
  records.filter fun record => (recordId? record).isNone

theorem unidentified_cons_none {record : Document} (hid : recordId? record = none) :
    unidentified (record :: records) = record :: unidentified records :=
  List.filter_cons_of_pos (by simp [hid])

theorem unidentified_cons_some {record : Document} {id : Nat} (hid : recordId? record = some id) :
    unidentified (record :: records) = unidentified records :=
  List.filter_cons_of_neg (by simp [hid])

/-- The records of a list, each with the identifier that it is loaded under: first those that carry
one, and behind them the others, numbered from the largest identifier on. -/
def numbered (records : List Document) : List (Document × Nat) :=
  (records.filterMap fun record => (recordId? record).map fun id => (record, id)) ++
    (unidentified records).zipIdx (largestId records + 1)

/-- The numbers are the identifiers that are carried, and then those that follow the largest. -/
theorem numbers_numbered (records : List Document) :
    (numbered records).map Prod.snd = records.filterMap recordId? ++
      List.range' (largestId records + 1) (unidentified records).length := by
  have hcarried : (records.filterMap fun record =>
      (recordId? record).map fun id => (record, id)).map Prod.snd =
        records.filterMap recordId? := by
    rw [List.map_filterMap]
    refine List.filterMap_congr fun record _ => ?_
    cases recordId? record <;> rfl
  rw [numbered, List.map_append, hcarried, List.zipIdx_map_snd]

/-- The records of a list in their stored forms: those that carry an identifier first. -/
theorem map_stored_numbered (records : List Document) :
    (numbered records).map (fun entry => stored entry.2 entry.1) = identified records ++
      ((unidentified records).zipIdx (largestId records + 1)).map
        (fun entry => stored entry.2 entry.1) := by
  rw [numbered, List.map_append, List.map_filterMap]
  congr 1
  refine List.filterMap_congr fun record _ => ?_
  cases recordId? record <;> rfl

/-- The second round stores the records without identifiers under the next ones, in order. -/
theorem Consistent.number_eq_ok (h : c.Consistent)
    (hn : Collection.number name c records = .ok d) :
    d.records.toList = c.records.toList ++
        ((unidentified records).zipIdx c.nextId).map (fun entry => stored entry.2 entry.1) ∧
      d.ids = c.ids ++ List.range' c.nextId (unidentified records).length := by
  induction records generalizing c with
  | nil =>
    obtain rfl := Except.ok.inj hn
    simp [unidentified]
  | cons record rest ih =>
    cases hid : recordId? record with
    | some id =>
      rw [number_cons_some hid] at hn
      rw [unidentified_cons_some hid]
      exact ih h hn
    | none =>
      rw [number_cons_none hid] at hn
      rw [unidentified_cons_none hid]
      split at hn
      · cases hn
      · next hmax =>
        obtain ⟨hrecords, hids⟩ := ih (h.create? (create?_eq_some_iff.2 ⟨hmax, rfl, rfl⟩)) hn
        obtain ⟨h0, hle⟩ := h.nextId_bounds
        constructor
        · rw [hrecords, List.zipIdx_cons, List.map_cons, List.append_cons]
          congr 1
          exact toList_records_push c c.nextId record
        · rw [hids, List.length_cons, List.range'_succ, List.append_cons]
          congr 1
          exact ids_push h0 hle record

/-- A collection that is loaded holds the records of the list, each under its number. -/
theorem records_ofRecords (h : ofRecords name records = .ok d) :
    d.records.toList = (numbered records).map (fun entry => stored entry.2 entry.1) ∧
      d.ids = (numbered records).map Prod.snd := by
  obtain ⟨hmax, placed, hp, hn⟩ := ofRecords_eq_ok_iff.1 h
  obtain ⟨hplaced, hnext, hfirst⟩ := consistent_place hmax hp
  obtain ⟨hrecords, hids⟩ := hplaced.number_eq_ok hn
  constructor
  · rw [hrecords, hfirst, hnext, map_stored_numbered]
  · rw [hids, hnext, numbers_numbered, ids, hfirst, filterMap_identified]

end Collection

end DocumentStore
