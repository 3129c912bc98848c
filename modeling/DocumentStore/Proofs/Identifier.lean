import DocumentStore.Collection

/-!
# Reading identifiers

What `coerceId` accepts, and that a stored record answers with the identifier it is stored under:

* `coerceId_eq_some_iff`: a value names an identifier when the number behind it is exactly that
  positive integer;
* `recordId?_stored`: the stored form is read back.
-/

namespace DocumentStore

/-- A positive integer of sixty-four bits is what it is as a natural number. -/
theorem toInt_ofNat_of_le {id : Nat} (h : id ≤ maxId) : (Int64.ofNat id).toInt = id :=
  Int64.toInt_ofNat_of_lt (by unfold maxId at h; omega)

theorem ofNat_lt_ofNat_iff {id other : Nat} (h : id ≤ maxId) (hother : other ≤ maxId) :
    Int64.ofNat id < Int64.ofNat other ↔ id < other := by
  rw [Int64.lt_iff_toInt_lt, toInt_ofNat_of_le h, toInt_ofNat_of_le hother]
  omega

/-- A value names an identifier when the number behind it is exactly that positive integer. -/
theorem coerceId_eq_some_iff {value : Value} {id : Nat} :
    coerceId value = some id ↔
      0 < id ∧ id ≤ maxId ∧ (idNumber? value).bind Number.asInt? = some (Int64.ofNat id) := by
  unfold coerceId
  cases hn : (idNumber? value).bind Number.asInt? with
  | none => simp
  | some n =>
    have hlt := n.toInt_lt
    have hpos : 0 < n ↔ 0 < n.toInt := by rw [Int64.lt_iff_toInt_lt, Int64.toInt_zero]
    simp only [Option.filter_some, decide_eq_true_eq, hpos, Option.some.injEq]
    -- a positive `n` and the natural number that is read from it determine each other
    constructor
    · intro h
      split at h
      · rw [Option.map_some, Option.some.injEq] at h
        have hid : id ≤ maxId := by unfold maxId; omega
        refine ⟨by omega, hid, Int64.toInt_inj.1 ?_⟩
        rw [toInt_ofNat_of_le hid]
        omega
      · simp at h
    · rintro ⟨h0, hid, rfl⟩
      have hint := toInt_ofNat_of_le hid
      rw [if_pos (by omega), Option.map_some, hint, Int.toNat_natCast]

theorem coerceId_bounds {value : Value} {id : Nat} (h : coerceId value = some id) :
    0 < id ∧ id ≤ maxId :=
  ⟨(coerceId_eq_some_iff.1 h).1, (coerceId_eq_some_iff.1 h).2.1⟩

theorem coerceId_idValue {id : Nat} (h0 : 0 < id) (h : id ≤ maxId) :
    coerceId (idValue id) = some id :=
  coerceId_eq_some_iff.2 ⟨h0, h, rfl⟩

/-- A stored record carries the identifier that it is stored under, whatever its fields say. -/
theorem recordId?_stored {id : Nat} (h0 : 0 < id) (h : id ≤ maxId) (fields : Document) :
    recordId? (Collection.stored id fields) = some id := by
  unfold recordId?
  rw [Collection.get?_stored, if_pos rfl, Option.bind_some, coerceId_idValue h0 h]

theorem recordId?_bounds {record : Document} {id : Nat} (h : recordId? record = some id) :
    0 < id ∧ id ≤ maxId := by
  obtain ⟨value, -, hvalue⟩ := Option.bind_eq_some_iff.1 h
  exact coerceId_bounds hvalue

end DocumentStore
