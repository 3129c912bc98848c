import DocumentStore.Proofs.Dataset.Merging
import DocumentStore.Proofs.Json.Ordered

/-!
# Reading a dataset from JSON

A JSON value describes a dataset when it is an object of arrays of records. Whatever else it is, it
has one fault that counts, the first in the order of names and items.

* `readRecords_eq_error_iff` and `ofJson_eq_error_iff`: reading fails by exactly that fault;
* `ofJson_eq_ok`: otherwise it holds what the members list;
* `ofText_eq_error_iff`: a text fails by the fault of the value that it writes.
-/

namespace DocumentStore

namespace Json

/-! ## What describes a dataset -/

/-- The value is an array, and each of its items stands for a record. -/
def IsRecords (json : Json) : Prop :=
  ∃ items, json = .array items ∧ ∀ item ∈ items, ∃ record, item.toRecord = .ok record

/-- The value is an object, and each of its members is an array of records. -/
def IsDataset (json : Json) : Prop :=
  ∃ members, json = .object members ∧ ∀ member ∈ members, member.2.IsRecords

/-- The fault of a value that ought to be the array of records of a collection. -/
inductive RecordsFault (name : String) : Json → Fault → Prop
  /-- It is no array. -/
  | notArray {json : Json} (h : ∀ items, json ≠ .array items) :
      RecordsFault name json (.collectionNotArray name)
  /-- Of its items the first that stands for no record is at fault. -/
  | notRecord {items : List Json} {cause : Fault} (h : FirstFault toRecord items cause) :
      RecordsFault name (.array items) (.elementNotRecord name cause)

/-- The fault of a value that ought to describe a dataset. -/
inductive DatasetFault : Json → Fault → Prop
  /-- It is no object. -/
  | notObject {json : Json} (h : ∀ members, json ≠ .object members) :
      DatasetFault json .datasetNotObject
  /-- Of its members that are not as they ought to be the one with the least name is at fault. -/
  | badMember {members : List (String × Json)} {name : String} {json : Json} {fault : Fault}
      (hmem : (name, json) ∈ members) (h : json.RecordsFault name fault)
      (hleast : ∀ earlier ∈ members, earlier.1 < name → earlier.2.IsRecords) :
      DatasetFault (.object members) fault

/-- The records that a value lists; items that stand for none are passed over. -/
def records : Json → List Document
  | .array items => items.filterMap fun item => item.toRecord.toOption
  | _ => []

/-- The records that the members of a value list, by their names. -/
def entries : Json → Fields (List Document)
  | .object members => members.map fun member => (member.1, member.2.records)
  | _ => []

variable {json : Json} {name : String} {fault : Fault}

theorem RecordsFault.kind_eq (h : json.RecordsFault name fault) : fault.kind = .initialization := by
  cases h <;> rfl

theorem DatasetFault.kind_eq (h : json.DatasetFault fault) : fault.kind = .initialization := by
  cases h with
  | notObject => rfl
  | badMember _ h => exact h.kind_eq

end Json

namespace Dataset

variable {json : Json} {name : String} {fault : Fault}

/-! ## One collection -/

theorem readRecords_array (name : String) (items : List Json) : readRecords name (.array items) =
    items.mapM fun item => item.toRecord.mapError (.elementNotRecord name) := rfl

theorem readRecords_eq_error (name : String) (h : ∀ items, json ≠ .array items) :
    readRecords name json = .error (.collectionNotArray name) := by
  cases json with
  | array items => exact absurd rfl (h items)
  | null | boolean | integer | double | string | object => rfl

theorem readRecords_succeeds_iff :
    (∃ listed, readRecords name json = .ok listed) ↔ json.IsRecords := by
  unfold Json.IsRecords
  by_cases harray : ∃ items, json = .array items
  · obtain ⟨items, rfl⟩ := harray
    rw [readRecords_array, mapM_succeeds_iff]
    simp [mapError_eq_ok_iff]
  · rw [not_exists] at harray
    rw [readRecords_eq_error name harray]
    simp [harray]

theorem readRecords_eq_ok (name : String) (h : json.IsRecords) :
    readRecords name json = .ok json.records := by
  obtain ⟨items, rfl, hitems⟩ := h
  have hchecked : ∀ item ∈ items, ∃ record,
      item.toRecord.mapError (Fault.elementNotRecord name) = .ok record := by
    simpa only [mapError_eq_ok_iff] using hitems
  rw [readRecords_array, mapM_eq_ok_filterMap hchecked, Json.records]
  congr 2
  funext item
  cases item.toRecord <;> rfl

theorem readRecords_eq_error_iff :
    readRecords name json = .error fault ↔ json.RecordsFault name fault := by
  by_cases harray : ∃ items, json = .array items
  · obtain ⟨items, rfl⟩ := harray
    rw [readRecords_array, mapM_eq_error_iff, firstFault_mapError_iff]
    constructor
    · rintro ⟨cause, hcause, rfl⟩
      exact .notRecord hcause
    · rintro (h | hcause)
      · exact absurd rfl (h items)
      · exact ⟨_, hcause, rfl⟩
  · rw [not_exists] at harray
    rw [readRecords_eq_error name harray, Except.error.injEq]
    constructor
    · rintro rfl
      exact .notArray harray
    · rintro (_ | _)
      · rfl
      · exact absurd rfl (harray _)

/-! ## All collections -/

/-- The records of one member, under its name. -/
def readMember (member : String × Json) : Except Fault (String × List Document) :=
  (readRecords member.1 member.2).map (member.1, ·)

theorem readMember_succeeds_iff {member : String × Json} :
    (∃ entry, readMember member = .ok entry) ↔ member.2.IsRecords := by
  rw [readMember, map_succeeds_iff, readRecords_succeeds_iff]

theorem readMember_eq_error_iff {member : String × Json} :
    readMember member = .error fault ↔ member.2.RecordsFault member.1 fault := by
  rw [readMember, map_eq_error_iff, readRecords_eq_error_iff]

/-- All members may be read before any of their records is added. -/
theorem readMembers_eq (data : Dataset) (members : List (String × Json)) :
    readMembers data members = (members.mapM readMember).map fun entries =>
      entries.foldl (fun data entry => data.add entry.1 entry.2) data := by
  refine eq_map_mapM (fun _ => rfl) (fun data member rest => ?_) data members
  rw [readMembers, readMember]
  cases readRecords member.1 member.2 <;> rfl

theorem ofJson_eq_error (h : ∀ members, json ≠ .object members) :
    ofJson json = .error .datasetNotObject := by
  cases json with
  | object members => exact absurd rfl (h members)
  | null | boolean | integer | double | string | array => rfl

/-- What describes a dataset is read as the records that its members list. -/
theorem ofJson_eq_ok (h : json.IsDataset) : ofJson json = .ok (ofEntries json.entries) := by
  obtain ⟨members, rfl, hmembers⟩ := h
  have hread : ∀ member ∈ members, readMember member = .ok (member.1, member.2.records) := by
    intro member hmem
    rw [readMember, readRecords_eq_ok member.1 (hmembers member hmem)]
    rfl
  rw [ofJson, readMembers_eq, mapM_eq_ok_of_forall hread]
  rfl

/-- Anything else is refused, by its fault. -/
theorem ofJson_eq_error_iff (h : json.Ordered) :
    ofJson json = .error fault ↔ json.DatasetFault fault := by
  by_cases hobject : ∃ members, json = .object members
  · obtain ⟨members, rfl⟩ := hobject
    have hnames : members.Pairwise fun earlier later => earlier.1 < later.1 :=
      List.pairwise_map.1 h.1
    rw [ofJson, readMembers_eq, map_eq_error_iff, mapM_eq_error_iff,
      firstFault_iff_of_ascending hnames]
    simp only [readMember_eq_error_iff, readMember_succeeds_iff]
    constructor
    · rintro ⟨⟨name, json⟩, hmem, hbad, hleast⟩
      exact .badMember hmem hbad hleast
    · rintro (hnot | ⟨hmem, hbad, hleast⟩)
      · exact absurd rfl (hnot members)
      · exact ⟨_, hmem, hbad, hleast⟩
  · rw [not_exists] at hobject
    rw [ofJson_eq_error hobject, Except.error.injEq]
    constructor
    · rintro rfl
      exact .notObject hobject
    · rintro (_ | _)
      · rfl
      · exact absurd rfl (hobject _)

theorem ofJson_succeeds_iff : (∃ data, ofJson json = .ok data) ↔ json.IsDataset := by
  refine ⟨fun ⟨data, h⟩ => ?_, fun h => ⟨_, ofJson_eq_ok h⟩⟩
  by_cases hobject : ∃ members, json = .object members
  · obtain ⟨members, rfl⟩ := hobject
    rw [ofJson, readMembers_eq] at h
    have hread := mapM_succeeds_iff.1 (map_succeeds_iff.1 ⟨data, h⟩)
    exact ⟨members, rfl, fun member hmem => readMember_succeeds_iff.1 (hread member hmem)⟩
  · rw [not_exists] at hobject
    rw [ofJson_eq_error hobject] at h
    cases h

/-! ## A text -/

/-- A text is refused when it is no JSON, or by the fault of the value that it writes. -/
theorem ofText_eq_error_iff {text : String} : ofText text = .error fault ↔
    (Json.ofText? text = none ∧ fault = .malformedDataset) ∨
      ∃ json, Json.ofText? text = some json ∧ json.DatasetFault fault := by
  unfold ofText
  cases hread : Json.ofText? text with
  | none => simp [eq_comm]
  | some json => simp [ofJson_eq_error_iff (Json.ordered_of_ofText? hread)]

end Dataset

end DocumentStore
