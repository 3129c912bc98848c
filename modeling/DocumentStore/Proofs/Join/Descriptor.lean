import DocumentStore.Proofs.Except
import DocumentStore.Proofs.Join.Grammar

/-!
# Reading one descriptor

What the reader of declared joins finds under each entry of a descriptor, and in which order the
entries count. Mappings and nested joins are lists that are checked entry by entry.

* `declaredCollection_eq_ok_iff`, `declaredMatch_eq_ok_iff` and `declaredSub_eq_ok_iff`, and the
  same for faults, say what is read under `type`, `match` and `sub`;
* `declared_document_eq_ok_iff` and `declared_document_eq_error_iff` put them in order.
-/

namespace DocumentStore.Join

variable {attr : String} {value : Value} {descriptor : Document} {fault : Fault}

/-! ## What is read under `type` and `match` -/

theorem declaredCollection_eq_ok_iff {collection : String} :
    declaredCollection attr descriptor = .ok collection ↔
      descriptor.get? "type" = some (.string collection) := by
  unfold declaredCollection
  split
  · next named hget => rw [hget]; simp
  · next hnot =>
    constructor
    · intro h
      cases h
    · intro h
      exact absurd h (hnot collection)

theorem declaredCollection_eq_error_iff :
    declaredCollection attr descriptor = .error fault ↔
      ¬ NamesCollection descriptor ∧ fault = .declaredJoin attr .missingType := by
  unfold NamesCollection
  simp only [← @declaredCollection_eq_ok_iff attr]
  unfold declaredCollection
  split <;> simp [eq_comm]

/-- The pair that an entry of a mapping declares. -/
def declaredPair (attr : String) : String × Value → Except Fault (String × String)
  | (target, .string source) => .ok (target, source)
  | (target, _) => .error (.declaredJoin attr (.sourceNotName target))

theorem declaredPair_eq_ok_iff {entry : String × Value} {pair : String × String} :
    declaredPair attr entry = .ok pair ↔ entry = (pair.1, .string pair.2) := by
  obtain ⟨target, value⟩ := entry
  obtain ⟨target', source⟩ := pair
  cases value <;> simp [declaredPair]

theorem declaredPair_succeeds_iff {entry : String × Value} :
    (∃ pair, declaredPair attr entry = .ok pair) ↔ ∃ source, entry.2 = .string source := by
  obtain ⟨target, value⟩ := entry
  simp only [declaredPair_eq_ok_iff, Prod.exists, Prod.mk.injEq]
  exact ⟨fun ⟨_, source, _, h⟩ => ⟨source, h⟩, fun ⟨source, h⟩ => ⟨target, source, rfl, h⟩⟩

theorem declaredPair_eq_error_iff {entry : String × Value} :
    declaredPair attr entry = .error fault ↔ (∀ source, entry.2 ≠ .string source) ∧
      fault = .declaredJoin attr (.sourceNotName entry.1) := by
  obtain ⟨target, value⟩ := entry
  cases value <;> simp [declaredPair, eq_comm]

theorem declaredPairs_eq_mapM (attr : String) (mapping : Document) :
    declaredPairs attr mapping = mapping.mapM (declaredPair attr) := by
  induction mapping with
  | nil => rfl
  | cons entry rest ih =>
    obtain ⟨target, value⟩ := entry
    rw [List.mapM_cons]
    cases value with
    | string source => rw [declaredPairs, ih]; rfl
    | _ => rfl

theorem declaredPairs_eq_ok_iff {mapping : Document} {pairs : List (String × String)} :
    declaredPairs attr mapping = .ok pairs ↔
      mapping = pairs.map fun pair => (pair.1, .string pair.2) := by
  rw [declaredPairs_eq_mapM, mapM_eq_ok_iff]
  simp only [declaredPair_eq_ok_iff]
  rw [← List.forall₂_eq_eq_eq, List.forall₂_map_right_iff]

/-- What is read under `match` are the pairs that are listed there. -/
theorem declaredMatch_eq_ok_iff {pairs : List (String × String)} :
    declaredMatch attr descriptor = .ok pairs ↔ ListsPairs descriptor pairs := by
  unfold declaredMatch
  cases hget : descriptor.get? "match" with
  | none =>
    constructor
    · intro h
      cases h
      exact .absent hget
    · intro h
      cases h with
      | absent => rfl
      | mapping h => rw [hget] at h; cases h
  | some value =>
    constructor
    · intro h
      cases value with
      | document mapping =>
        rw [declaredPairs_eq_ok_iff] at h
        exact .mapping (h ▸ hget)
      | _ => cases h
    · intro h
      cases h with
      | absent h => rw [hget] at h; cases h
      | mapping h =>
        rw [hget] at h
        obtain rfl := Option.some.inj h
        exact declaredPairs_eq_ok_iff.2 rfl

theorem declaredMatch_succeeds_iff :
    (∃ pairs, declaredMatch attr descriptor = .ok pairs) ↔ MapsNames descriptor := by
  unfold declaredMatch MapsNames
  cases descriptor.get? "match" with
  | none => simp
  | some value =>
    cases value with
    | document mapping =>
      show (∃ pairs, declaredPairs attr mapping = .ok pairs) ↔ _
      simp only [declaredPairs_eq_mapM, mapM_succeeds_iff, declaredPair_succeeds_iff]
      simp
    | _ => simp

theorem declaredMatch_eq_error_iff : declaredMatch attr descriptor = .error fault ↔
    (∃ value, descriptor.get? "match" = some value ∧ (∀ fields, value ≠ .document fields) ∧
      fault = .declaredJoin attr .matchNotDocument) ∨
    ∃ front target value back,
      descriptor.get? "match" = some (.document (front ++ (target, value) :: back)) ∧
      (∀ entry ∈ front, ∃ source, entry.2 = .string source) ∧ (∀ source, value ≠ .string source) ∧
      fault = .declaredJoin attr (.sourceNotName target) := by
  unfold declaredMatch
  cases descriptor.get? "match" with
  | none => simp
  | some value =>
    cases value with
    | document mapping =>
      show declaredPairs attr mapping = .error fault ↔ _
      simp only [declaredPairs_eq_mapM, mapM_eq_error_iff, FirstFault, declaredPair_succeeds_iff,
        declaredPair_eq_error_iff]
      simp
    | _ => simp [eq_comm]

/-! ## What is read under `sub` -/

theorem declaredSub_eq (attr : String) (descriptor : Document) :
    declaredSub attr descriptor = match descriptor.get? "sub" with
      | some (.document sub) => declaredEntries sub
      | some .null => .ok []
      | some _ => .error (.declaredJoin attr .subNotDocument)
      | none => .ok [] := by
  induction descriptor with
  | nil => rfl
  | cons entry rest ih =>
    obtain ⟨name, value⟩ := entry
    rw [Fields.get?_cons]
    by_cases hname : name = "sub"
    · rw [if_pos hname]
      cases value <;> simp [declaredSub, hname]
    · rw [if_neg hname, ← ih]
      cases value <;> simp [declaredSub, hname]

theorem declaredSub_eq_ok_iff {joins : List (String × Join)} :
    declaredSub attr descriptor = .ok joins ↔
      ((descriptor.get? "sub" = none ∨ descriptor.get? "sub" = some .null) ∧ joins = []) ∨
      ∃ sub, descriptor.get? "sub" = some (.document sub) ∧ declaredEntries sub = .ok joins := by
  rw [declaredSub_eq]
  cases descriptor.get? "sub" with
  | none => simp [eq_comm]
  | some value => cases value <;> simp [eq_comm]

theorem declaredSub_eq_error_iff : declaredSub attr descriptor = .error fault ↔
    (∃ value, descriptor.get? "sub" = some value ∧ value ≠ .null ∧
      (∀ fields, value ≠ .document fields) ∧ fault = .declaredJoin attr .subNotDocument) ∨
    ∃ sub, descriptor.get? "sub" = some (.document sub) ∧ declaredEntries sub = .error fault := by
  rw [declaredSub_eq]
  cases descriptor.get? "sub" with
  | none => simp
  | some value => cases value <;> simp [eq_comm]

/-- The join that an entry declares, under its attribute. -/
def declaredEntry (entry : String × Value) : Except Fault (String × Join) :=
  (declared entry.1 entry.2).map (entry.1, ·)

theorem declaredEntries_eq_mapM (document : Document) :
    declaredEntries document = document.mapM declaredEntry := by
  induction document with
  | nil => rfl
  | cons entry rest ih =>
    obtain ⟨attr, value⟩ := entry
    rw [declaredEntries, ih, List.mapM_cons, declaredEntry]
    cases declared attr value <;> rfl

/-! ## What is read of a descriptor -/

theorem declared_eq_error (h : ∀ fields, value ≠ .document fields) :
    declared attr value = .error (.declaredJoin attr .notDocument) := by
  cases value with
  | document fields => exact absurd rfl (h fields)
  | _ => rfl

theorem declared_document_eq_ok_iff {join : Join} :
    declared attr (.document descriptor) = .ok join ↔ ∃ collection pairs joins,
      descriptor.get? "type" = some (.string collection) ∧ ListsPairs descriptor pairs ∧
      declaredSub attr descriptor = .ok joins ∧ join = ⟨collection, pairs, joins⟩ := by
  rw [declared]
  simp only [bind_eq_ok_iff, declaredCollection_eq_ok_iff, declaredMatch_eq_ok_iff]
  constructor
  · intro h
    obtain ⟨collection, htype, pairs, hpairs, joins, hjoins, hjoin⟩ := h
    exact ⟨collection, pairs, joins, htype, hpairs, hjoins, (Except.ok.inj hjoin).symm⟩
  · intro h
    obtain ⟨collection, pairs, joins, htype, hpairs, hjoins, hjoin⟩ := h
    exact ⟨collection, htype, pairs, hpairs, joins, hjoins, hjoin ▸ rfl⟩

theorem declared_document_eq_error_iff :
    declared attr (.document descriptor) = .error fault ↔
      declaredCollection attr descriptor = .error fault ∨
      NamesCollection descriptor ∧ (declaredMatch attr descriptor = .error fault ∨
        MapsNames descriptor ∧ declaredSub attr descriptor = .error fault) := by
  have hlast (collection : String) (pairs : List (String × String)) :
      (do return ⟨collection, pairs, ← declaredSub attr descriptor⟩ : Except Fault Join) =
        .error fault ↔ declaredSub attr descriptor = .error fault := by
    rw [bind_eq_error_iff]
    exact or_iff_left fun ⟨_, _, h⟩ => nomatch h
  have hcollection : (∃ collection, declaredCollection attr descriptor = .ok collection) ↔
      NamesCollection descriptor := by
    simp only [declaredCollection_eq_ok_iff, NamesCollection]
  rw [declared]
  simp only [bind_eq_error_iff, hlast]
  rw [← @declaredMatch_succeeds_iff attr, ← hcollection]
  simp only [exists_and_right]

end DocumentStore.Join
