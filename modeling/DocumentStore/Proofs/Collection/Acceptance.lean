import DocumentStore.Proofs.Collection.Loading

/-!
# Which records make a collection

A loading can fail in three ways: an identifier may be the largest integer, one may occur twice, and
there may be too few left for the records that carry none. This module says when each of them
happens, and in which order they are found.

* `FirstRepeated` is the identifier at which the first round stops, `place_eq_error_iff` says so;
* `number_eq_error_iff` and `number_succeeds_iff`: what the second round asks for;
* `ofRecords_iff`: which lists of records make a collection, which collection it is, and by which
  fault all others fail.
-/

namespace DocumentStore.Collection

variable {c d : Collection} {name : String} {records : List Document} {fault : Fault}

/-! ## The first identifier that occurs again -/

/-- The first identifier of a row that occurs before it, be it in the row itself or among those that
were seen earlier. -/
def FirstRepeated (seen ids : List Nat) (id : Nat) : Prop :=
  ∃ front back, ids = front ++ id :: back ∧ (seen ++ front).Nodup ∧ id ∈ seen ++ front

theorem not_firstRepeated_nil (seen : List Nat) (id : Nat) : ¬ FirstRepeated seen [] id := by
  rintro ⟨front, back, h, -⟩
  cases front <;> cases h

/-- The row stops at its head where that was seen. -/
theorem firstRepeated_cons_of_mem {seen ids : List Nat} {first id : Nat} (hseen : seen.Nodup)
    (hmem : first ∈ seen) : FirstRepeated seen (first :: ids) id ↔ id = first := by
  constructor
  · rintro ⟨_ | ⟨head, front⟩, back, h, hnodup, -⟩
    · exact (List.cons.inj h).1.symm
    · obtain ⟨rfl, -⟩ := List.cons.inj h
      exact absurd rfl ((List.nodup_append.1 hnodup).2.2 first hmem first List.mem_cons_self)
  · rintro rfl
    exact ⟨[], ids, rfl, by rwa [List.append_nil], by rwa [List.append_nil]⟩

/-- Otherwise it goes on, and the head is seen from there on. -/
theorem firstRepeated_cons_of_not_mem {seen ids : List Nat} {first id : Nat}
    (hmem : first ∉ seen) :
    FirstRepeated seen (first :: ids) id ↔ FirstRepeated (seen ++ [first]) ids id := by
  constructor
  · rintro ⟨_ | ⟨head, front⟩, back, h, hnodup, hid⟩
    · obtain ⟨rfl, -⟩ := List.cons.inj h
      rw [List.append_nil] at hid
      exact absurd hid hmem
    · obtain ⟨rfl, rfl⟩ := List.cons.inj h
      rw [List.append_cons] at hnodup hid
      exact ⟨front, back, rfl, hnodup, hid⟩
  · rintro ⟨front, back, rfl, hnodup, hid⟩
    rw [← List.append_cons] at hnodup hid
    exact ⟨first :: front, back, rfl, hnodup, hid⟩

/-! ## The two rounds -/

/-- The first round fails by the first identifier that occurs again. -/
theorem place_eq_error_iff (h : c.Indexed) (hlt : ∀ id ∈ records.filterMap recordId?, id < maxId) :
    place name c records = .error fault ↔
      ∃ id, FirstRepeated c.ids (records.filterMap recordId?) id ∧
        fault = .repeatedId id name := by
  -- what has been placed is what has been seen
  induction records generalizing c with
  | nil => simp [place, not_firstRepeated_nil]
  | cons record rest ih =>
    cases hid : recordId? record with
    | none =>
      rw [place_cons_none hid]
      rw [List.filterMap_cons_none hid] at hlt ⊢
      exact ih h hlt
    | some first =>
      rw [List.filterMap_cons_some hid, List.forall_mem_cons] at hlt
      obtain ⟨h0, hle⟩ := recordId?_bounds hid
      rw [h.place_cons_some hid, List.filterMap_cons_some hid]
      by_cases hmem : first ∈ c.ids
      · simp only [if_pos hmem, firstRepeated_cons_of_mem h.nodup_ids hmem, exists_eq_left,
          Except.error.injEq]
        exact eq_comm
      · simp only [if_neg hmem, firstRepeated_cons_of_not_mem hmem, ← ids_push h0 hle record]
        exact ih (h.push h0 hlt.1 hmem record) hlt.2

/-- The second round fails where the records without identifiers outnumber the integers that are
left. -/
theorem number_eq_error_iff (h : c.nextId ≤ maxId) : number name c records = .error fault ↔
    maxId < c.nextId + (unidentified records).length ∧ fault = .noIdsLeft name := by
  induction records generalizing c with
  | nil =>
    have hfits : ¬ maxId < c.nextId := Nat.not_lt.2 h
    simp [number, unidentified, hfits]
  | cons record rest ih =>
    cases hid : recordId? record with
    | some id =>
      rw [number_cons_some hid, unidentified_cons_some hid]
      exact ih h
    | none =>
      rw [number_cons_none hid, unidentified_cons_none hid, List.length_cons]
      by_cases hmax : c.nextId = maxId
      · have hfull : maxId < c.nextId + ((unidentified rest).length + 1) := by omega
        simp only [if_pos hmax, hfull, true_and, Except.error.injEq]
        exact eq_comm
      · have hnext : c.nextId + 1 ≤ maxId := by omega
        rw [if_neg hmax, ih hnext, Nat.add_right_comm, Nat.add_assoc]

theorem number_succeeds_iff (name : String) (h : c.nextId ≤ maxId) :
    (∃ d, number name c records = .ok d) ↔ c.nextId + (unidentified records).length ≤ maxId := by
  cases hn : number name c records with
  | ok d =>
    have hfits : ¬ maxId < c.nextId + (unidentified records).length := fun hfull => by
      rw [(number_eq_error_iff h).2 ⟨hfull, rfl⟩] at hn
      cases hn
    simpa using hfits
  | error fault => simpa using ((number_eq_error_iff h).1 hn).1

/-- The sequence moves on by one with each record that is numbered. -/
theorem nextId_number (hn : number name c records = .ok d) :
    d.nextId = c.nextId + (unidentified records).length := by
  induction records generalizing c with
  | nil =>
    obtain rfl := Except.ok.inj hn
    rfl
  | cons record rest ih =>
    cases hid : recordId? record with
    | some id =>
      rw [number_cons_some hid] at hn
      rw [unidentified_cons_some hid]
      exact ih hn
    | none =>
      rw [number_cons_none hid] at hn
      rw [unidentified_cons_none hid, List.length_cons]
      split at hn
      · cases hn
      · rw [ih hn]
        exact Nat.add_right_comm ..

/-! ## Both rounds -/

/-- A collection is made where both rounds go through. -/
theorem ofRecords_succeeds_iff (name : String) (records : List Document) :
    (∃ c, ofRecords name records = .ok c) ↔ (records.filterMap recordId?).Nodup ∧
      largestId records < maxId ∧ largestId records + 1 + (unidentified records).length ≤ maxId := by
  have hstart := consistent_empty.withNextId (largestId records + 1)
  simp only [ofRecords_eq_ok_iff]
  constructor
  · rintro ⟨c, hmax, placed, hp, hn⟩
    have hlt : largestId records < maxId := Nat.lt_of_le_of_ne (largestId_le records) hmax
    have hnext := (consistent_place hmax hp).2.1
    have hnodup := (place_succeeds_iff name hstart (lt_maxId_of_mem hmax)).1 ⟨placed, hp⟩
    have hfits := (number_succeeds_iff name (hnext ▸ hlt)).1 ⟨c, hn⟩
    rw [hnext] at hfits
    exact ⟨hnodup, hlt, hfits⟩
  · rintro ⟨hnodup, hlt, hfits⟩
    have hmax : largestId records ≠ maxId := Nat.ne_of_lt hlt
    obtain ⟨placed, hp⟩ := (place_succeeds_iff name hstart (lt_maxId_of_mem hmax)).2 hnodup
    have hnext := (consistent_place hmax hp).2.1
    rw [← hnext] at hfits
    obtain ⟨c, hn⟩ := (number_succeeds_iff name (hnext ▸ hlt)).2 hfits
    exact ⟨c, hmax, placed, hp, hn⟩

/-- Where one of them fails, it is by the first thing that is wrong. -/
theorem ofRecords_eq_error_iff : ofRecords name records = .error fault ↔
    (largestId records = maxId ∧ fault = .idTooLarge (largestId records) name) ∨
    (largestId records < maxId ∧ ∃ id, FirstRepeated [] (records.filterMap recordId?) id ∧
      fault = .repeatedId id name) ∨
    (largestId records < maxId ∧ (records.filterMap recordId?).Nodup ∧
      maxId < largestId records + 1 + (unidentified records).length ∧ fault = .noIdsLeft name) := by
  have hstart := consistent_empty.withNextId (largestId records + 1)
  by_cases hmax : largestId records = maxId
  · simp [ofRecords, hmax, eq_comm]
  · have hlt : largestId records < maxId := Nat.lt_of_le_of_ne (largestId_le records) hmax
    have hids := lt_maxId_of_mem hmax
    have hrounds : ofRecords name records = place name { empty with nextId := largestId records + 1 }
        records >>= fun placed => number name placed records := if_neg hmax
    simp only [hmax, hlt, false_and, false_or, true_and]
    rw [hrounds, bind_eq_error_iff, place_eq_error_iff hstart hids]
    refine or_congr_right ?_
    -- the second round is entered where no identifier occurs twice
    constructor
    · rintro ⟨placed, hp, hn⟩
      have hnext := (consistent_place hmax hp).2.1
      have hnodup := (place_succeeds_iff name hstart hids).1 ⟨placed, hp⟩
      rw [number_eq_error_iff (hnext ▸ hlt), hnext] at hn
      exact ⟨hnodup, hn⟩
    · rintro ⟨hnodup, hfull⟩
      obtain ⟨placed, hp⟩ := (place_succeeds_iff name hstart hids).2 hnodup
      have hnext := (consistent_place hmax hp).2.1
      rw [← hnext] at hfull
      exact ⟨placed, hp, (number_eq_error_iff (hnext ▸ hlt)).2 hfull⟩

/-- The sequence of a collection that is loaded goes on behind all records. -/
theorem nextId_ofRecords (h : ofRecords name records = .ok c) :
    c.nextId = largestId records + 1 + (unidentified records).length := by
  obtain ⟨hmax, placed, hp, hn⟩ := ofRecords_eq_ok_iff.1 h
  rw [nextId_number hn, (consistent_place hmax hp).2.1]

theorem size_ofRecords (h : ofRecords name records = .ok c) : c.records.size =
    (records.filterMap recordId?).length + (unidentified records).length := by
  have hlength := congrArg List.length (numbers_numbered records)
  rw [List.length_map, List.length_append, List.length_range'] at hlength
  rw [← Array.length_toList, (records_ofRecords h).1, List.length_map, hlength]

/-- Which lists of records make a collection, which collection it is, and by which fault all others
fail.

A collection is made exactly when no identifier is carried twice, none is the largest integer, and
the integers behind the largest identifier suffice for the records that carry none. It holds the
records that carry identifiers, in order and in their stored form, and behind them the others,
numbered from the largest identifier on, and its sequence goes on behind these. Where several things
are wrong, the largest integer comes first, then the first identifier that is carried twice, and
last the lack of identifiers. -/
theorem ofRecords_iff (name : String) (records : List Document) :
    let ids := records.filterMap recordId?
    let largest := ids.max?.getD 0
    let others := records.filter fun record => (recordId? record).isNone
    ((∃ c, ofRecords name records = .ok c) ↔ ids.Nodup ∧ largest < maxId ∧
      (others ≠ [] → largest + 1 + others.length ≤ maxId)) ∧
    (∀ c, ofRecords name records = .ok c →
      c.records.toList =
        (records.filterMap fun record => (recordId? record).map fun id => stored id record) ++
          (others.zipIdx (largest + 1)).map (fun entry => stored entry.2 entry.1) ∧
      c.records.size = ids.length + others.length ∧ c.nextId = largest + 1 + others.length) ∧
    (∀ fault, ofRecords name records = .error fault ↔
      (largest = maxId ∧ fault = .idTooLarge largest name) ∨
      (largest < maxId ∧ ∃ id,
        (∃ front back, ids = front ++ id :: back ∧ front.Nodup ∧ id ∈ front) ∧
          fault = .repeatedId id name) ∨
      (largest < maxId ∧ ids.Nodup ∧ maxId < largest + 1 + others.length ∧
        fault = .noIdsLeft name)) ∧
    ∀ fault, ofRecords name records = .error fault → fault.kind = .initialization := by
  intro ids largest others
  have hlargest : largestId records = largest := largestId_eq_max? records
  have hothers : unidentified records = others := rfl
  have hfits (hlt : largest < maxId) : (others ≠ [] → largest + 1 + others.length ≤ maxId) ↔
      largest + 1 + others.length ≤ maxId := by
    refine ⟨fun h => ?_, fun h _ => h⟩
    by_cases hnil : others = []
    · rw [hnil]
      exact hlt
    · exact h hnil
  refine ⟨?_, fun c hc => ⟨?_, size_ofRecords hc, ?_⟩, fun fault => ?_,
    fun fault hfault => kind_of_ofRecords_eq_error hfault⟩
  · rw [ofRecords_succeeds_iff, hlargest, hothers]
    exact and_congr_right fun _ => and_congr_right fun hlt => (hfits hlt).symm
  · rw [(records_ofRecords hc).1, map_stored_numbered, hlargest, hothers]
    rfl
  · rw [nextId_ofRecords hc, hlargest, hothers]
  · rw [ofRecords_eq_error_iff, hlargest, hothers]
    simp only [FirstRepeated, List.nil_append]
    rfl

/-- One identifier in two spellings is carried twice. Without the second spelling the records make a
collection, in which the identifier that is no positive integer is replaced. -/
theorem ofRecords_iff_spellings :
    ofRecords "A" [[("id", .string "5")], [("id", .int32 0), ("x", .null)], [("id", .int64 5)]] =
      .error (.repeatedId 5 "A") ∧
    ∃ c, ofRecords "A" [[("id", .string "5")], [("id", .int32 0), ("x", .null)]] = .ok c ∧
      c.records.toList = [[("id", .int64 5)], [("id", .int64 6), ("x", .null)]] ∧ c.nextId = 7 := by
  have htext : recordId? [("id", .string "5")] = some 5 := by decide +kernel
  have hzero : recordId? [("id", .int32 0), ("x", .null)] = none := by decide +kernel
  have hfive : recordId? [("id", .int64 5)] = some 5 := by decide +kernel
  constructor
  · refine ((ofRecords_iff "A" _).2.2.1 _).2 (.inr (.inl ⟨?_, 5, ⟨[5], [], ?_⟩, rfl⟩)) <;>
      simp [htext, hzero, hfive, maxId]
  · obtain ⟨hiff, hloaded, -⟩ := ofRecords_iff "A"
      [[("id", .string "5")], [("id", .int32 0), ("x", .null)]]
    obtain ⟨c, hc⟩ := hiff.2 (by simp [htext, hzero, maxId])
    obtain ⟨hrecords, -, hnext⟩ := hloaded c hc
    refine ⟨c, hc, hrecords.trans ?_, hnext.trans ?_⟩ <;>
      simp [htext, hzero, stored, Fields.without, idField, idValue]

end DocumentStore.Collection
