import DocumentStore.Proofs.Entity.Format
import DocumentStore.Proofs.Json.Denotation
import DocumentStore.Proofs.Number.Reading

/-!
# Reading an entity before and after a conversion

An entity may be read from a JSON value, or from the value that this is converted into. A conversion
keeps the names of an object and all data that an entity consists of, so both readings find the same.

* `Carries` says this of a reader of data, and `Carries.required`, `Carries.optional` and
  `Carries.withDefault` of the fields that it reads;
* `Json.StandsFor.fields?`: the fields of an object before and after the conversion;
* `ReadByField` is what the types of entities have in common, and `ReadByField.carries` says it of
  all of them.
-/

namespace DocumentStore

open Format

/-- In JSON data is recognised as it was written. -/
instance : LawfulFormat Json where
  isNull_null := rfl
  isNull_int _ := rfl
  isNull_string _ := rfl
  asInt?_int n := by
    show (if Number.fits n.toInt then some (Int64.ofInt n.toInt) else none) = some n
    rw [if_pos (Number.fits_toInt n), Int64.ofInt_toInt]
  asString?_string _ := rfl
  asArray?_array _ := rfl
  asObject?_object {fields} h := by
    refine ⟨_, rfl, fun name => ?_⟩
    rw [Fields.get?_foldl_insertSorted h, Fields.get?_nil, Option.or_none]

/-! ## What a conversion keeps -/

namespace Json

/-- The JSON value is converted into the value. -/
def StandsFor (json : Json) (value : Value) : Prop := Extension.standard.toValue json = .ok value

theorem itemValues_eq_ok_iff {items : List Json} {values : List Value} :
    Extension.standard.itemValues items = .ok values ↔ List.Forall₂ StandsFor items values := by
  induction items generalizing values with
  | nil =>
    rw [Extension.itemValues, List.forall₂_nil_left_iff]
    exact ⟨fun h => (Except.ok.inj h).symm, fun h => h ▸ rfl⟩
  | cons item rest ih =>
    rw [Extension.itemValues, bind_eq_ok_iff, List.forall₂_cons_left_iff]
    constructor
    · rintro ⟨value, hvalue, h⟩
      obtain ⟨others, hothers, h⟩ := bind_eq_ok_iff.1 h
      exact ⟨value, others, hvalue, ih.1 hothers, (Except.ok.inj h).symm⟩
    · rintro ⟨value, others, hvalue, hothers, rfl⟩
      exact ⟨value, hvalue, bind_eq_ok_iff.2 ⟨others, ih.2 hothers, rfl⟩⟩

theorem StandsFor.eq_int64 {json : Json} {value : Value} {n : Int64} (h : json.StandsFor value)
    (hn : Format.asInt? json = some n) : value = .int64 n := by
  cases json with
  | integer m =>
    obtain ⟨hfits, hm⟩ := Option.ite_none_right_eq_some.1 hn
    rw [StandsFor, Extension.toValue, if_pos hfits, Except.ok.injEq] at h
    rw [← h, Option.some.inj hm]
  | null | boolean | double | string | array | object => cases hn

end Json

/-- What one reader finds in a JSON value the other finds in the value that it is converted into. -/
def Carries {α : Type} (fromJson : Json → Option α) (fromValue : Value → Option α) : Prop :=
  ∀ ⦃json : Json⦄ ⦃value : Value⦄ ⦃found : α⦄, json.StandsFor value →
    fromJson json = some found → fromValue value = some found

namespace Carries

variable {α : Type} {fromJson : Json → Option α} {fromValue : Value → Option α}

theorem asInt? : Carries Format.asInt? Format.asInt? := by
  intro json value n h hn
  rw [h.eq_int64 hn]
  rfl

theorem asString? : Carries Format.asString? Format.asString? := by
  intro json value text h htext
  cases json with
  | string =>
    obtain rfl := Except.ok.inj h
    exact htext
  | null | boolean | integer | double | array | object => cases htext

theorem mapM (hread : Carries fromJson fromValue) {items : List Json} {values : List Value}
    {found : List α} (h : List.Forall₂ Json.StandsFor items values)
    (hitems : items.mapM fromJson = some found) : values.mapM fromValue = some found := by
  induction h generalizing found with
  | nil => exact hitems
  | cons hstands _ ih =>
    rw [List.mapM_cons] at hitems ⊢
    obtain ⟨first, hfirst, hitems⟩ := Option.bind_eq_some_iff.1 hitems
    obtain ⟨rest, hrest, hitems⟩ := Option.bind_eq_some_iff.1 hitems
    rw [hread hstands hfirst, ih hrest]
    exact hitems

/-- A list is read item by item. -/
theorem asList? (hread : Carries fromJson fromValue) :
    Carries (Format.asList? fromJson) (Format.asList? fromValue) := by
  intro json value found h hfound
  cases json with
  | array items =>
    obtain ⟨values, hvalues, h⟩ := bind_eq_ok_iff.1 h
    obtain rfl := Except.ok.inj h
    exact hread.mapM (Json.itemValues_eq_ok_iff.1 hvalues) hfound
  | null | boolean | integer | double | string | object => cases hfound

variable {fields : Fields Json} {others : Document} {name : String}

theorem required (hread : Carries fromJson fromValue) {found : α}
    (hrel : Option.Rel Json.StandsFor (fields.get? name) (Fields.get? others name))
    (h : Format.required fromJson fields name = some found) :
    Format.required fromValue others name = some found := by
  unfold Format.required at h ⊢
  generalize Fields.get? fields name = json?, Fields.get? others name = value? at hrel h ⊢
  cases hrel with
  | some hstands => exact hread hstands h
  | none => cases h

theorem withDefault (hread : Carries fromJson fromValue) {default found : α}
    (hrel : Option.Rel Json.StandsFor (fields.get? name) (Fields.get? others name))
    (h : Format.withDefault default fromJson fields name = some found) :
    Format.withDefault default fromValue others name = some found := by
  unfold Format.withDefault at h ⊢
  generalize Fields.get? fields name = json?, Fields.get? others name = value? at hrel h ⊢
  cases hrel with
  | some hstands => exact hread hstands h
  | none => exact h

/-- What is read is not null, so that it is not taken to be absent in the other form. -/
theorem optional (hread : Carries fromJson fromValue) (hnull : fromValue .null = none)
    {found : Option α}
    (hrel : Option.Rel Json.StandsFor (fields.get? name) (Fields.get? others name))
    (h : Format.optional fromJson fields name = some found) :
    Format.optional fromValue others name = some found := by
  unfold Format.optional at h ⊢
  generalize Fields.get? fields name = json?, Fields.get? others name = value? at hrel h ⊢
  cases hrel with
  | none => exact h
  | @some json value hstands =>
    cases json with
    | null =>
      obtain rfl := Except.ok.inj hstands
      exact h
    | boolean | integer | double | string | array | object =>
      obtain ⟨read, hjson, rfl⟩ := Option.map_eq_some_iff.1 h
      have hvalue := hread hstands hjson
      cases value with
      | null => cases hnull.symm.trans hvalue
      | _ =>
        show Option.map some (fromValue _) = _
        rw [hvalue]
        rfl

end Carries

/-! ## The fields of an object -/

namespace Json

/-- An object with a name that does not start with a dollar sign stands for a document. -/
theorem StandsFor.of_object {members : List (String × Json)} {value : Value} {name : String}
    (h : (object members).StandsFor value) (hmem : name ∈ Fields.names members)
    (hdollar : name.toList.head? ≠ some '$') :
    ∃ values, value = .document values ∧
      Extension.standard.memberValues members = .ok values := by
  obtain ⟨values, hvalues, rfl⟩ := Extension.toValue_object_eq_ok_iff.1 h
  refine ⟨values, ?_, hvalues⟩
  cases hdenoted : Extension.standard.denoted? values with
  | none => rw [Extension.ofMembers, hdenoted, Option.getD_none]
  | some denoted =>
    have hdenotes : Extension.standard.Denotes (object members) denoted :=
      ⟨members, values, rfl, hvalues, hdenoted⟩
    exact absurd hdenotes (Extension.not_denotes (.inr ⟨name, hmem, hdollar⟩))

/-- The fields of an object that names its identifier are the fields of what it stands for. -/
theorem StandsFor.fields? {json : Json} {value : Value} {lead trailing : List String}
    {fields : Fields Json} (h : json.StandsFor value)
    (hfields : Format.fields? lead trailing json = some fields) (hid : idField ∈ fields.names) :
    ∃ others, Format.fields? lead trailing value = some others ∧
      ∀ name, Option.Rel StandsFor (fields.get? name) (Fields.get? others name) := by
  cases json with
  | object members =>
    obtain rfl := Option.some.inj hfields
    obtain ⟨values, rfl, hvalues⟩ := h.of_object hid (by decide)
    exact ⟨values, rfl, (Extension.paired_memberValues hvalues).rel_get?⟩
  | array items =>
    obtain ⟨values, hvalues, h⟩ := bind_eq_ok_iff.1 h
    obtain rfl := Except.ok.inj h
    have hboth := itemValues_eq_ok_iff.1 hvalues
    obtain ⟨hlength, hzip⟩ := Option.ite_none_right_eq_some.1 hfields
    obtain rfl := Option.some.inj hzip
    refine ⟨(lead ++ trailing).zip values, ?_, (Fields.Paired.zip hboth _).rel_get?⟩
    have hlead : lead.length ≤ values.length := hboth.length_eq ▸ hlength.1
    exact if_pos ⟨hlead, .inl rfl⟩
  | null | boolean | integer | double | string => cases hfields

end Json

/-! ## Types of entities -/

/-- A type of entities that are read field by field, the identifier first. -/
class ReadByField (α : Type) [Entity α] [Described α] where
  /-- The fields that a list has to reach, in order. -/
  lead : List String
  /-- The fields behind them, any of which a list may leave out. -/
  trailing : List String
  /-- Reads an entity from its other fields, when its identifier is read. -/
  readUnder? {φ : Type} [Format φ] : Int64 → Fields φ → Option α
  withId_id (entity : α) : Described.withId entity (Described.id entity) = entity
  read?_eq {φ : Type} [Format φ] (data : φ) : Entity.read? data = do
    let fields ← Format.fields? lead trailing data
    readUnder? (← Format.required Format.asInt? fields idField) fields
  /-- What stands for the fields of an entity is read as this entity, under any identifier. -/
  readUnder?_eq {fields : Fields Json} {others : Document} {entity : α} {n : Int64}
    (h : readUnder? n fields = some entity)
    (hrel : ∀ name ∈ Described.names α,
      Option.Rel Json.StandsFor (fields.get? name) (others.get? name)) :
    Described.id entity = n ∧ ∀ m, readUnder? m others = some (Described.withId entity m)

namespace ReadByField

variable {α : Type} [Entity α] [Described α] [ReadByField α] {json : Json} {value : Value} {entity : α}

/-- An entity that is read from a JSON value is read from every document that has its fields from what
the JSON value stands for, under the identifier of the document. -/
theorem exists_fields (hread : Entity.read? json = some entity) (h : json.StandsFor value) :
    ∃ others : Document, Format.fields? (lead α) (trailing α) value = some others ∧
      others.get? idField = some (.int64 (Described.id entity)) ∧
      ∀ (row : Document) (m : Int64), (∀ name ∈ Described.names α, row.get? name = others.get? name) →
        readUnder? m row = some (Described.withId entity m) := by
  rw [read?_eq] at hread
  obtain ⟨fields, hfields, hread⟩ := Option.bind_eq_some_iff.1 hread
  obtain ⟨n, hn, hread⟩ := Option.bind_eq_some_iff.1 hread
  obtain ⟨first, hfirst, hint⟩ := Option.bind_eq_some_iff.1 hn
  have hmem := Fields.mem_names_of_mem (Fields.mem_of_get?_eq_some hfirst)
  obtain ⟨others, hothers, hrel⟩ := h.fields? hfields hmem
  obtain ⟨rfl, -⟩ := readUnder?_eq hread fun name _ => hrel name
  refine ⟨others, hothers, ?_, fun row m hrow => (readUnder?_eq hread fun name hname => ?_).2 m⟩
  · have hid := hrel idField
    rw [hfirst] at hid
    generalize Fields.get? others idField = found? at hid ⊢
    cases hid with
    | some hstands => rw [hstands.eq_int64 hint]
  · rw [hrow name hname]
    exact hrel name

theorem read?_of_fields? {row : Document} {n : Int64}
    (hfields : Format.fields? (lead α) (trailing α) value = some row)
    (hid : row.get? idField = some (.int64 n)) :
    (Entity.read? value : Option α) = readUnder? n row := by
  have hn : Format.required Format.asInt? row idField = some n := Format.required_of_get? hid rfl
  rw [read?_eq, hfields]
  show (Format.required Format.asInt? row idField).bind _ = _
  rw [hn, Option.bind_some]

theorem carries : Carries (Entity.read? : Json → Option α) Entity.read? := by
  intro json value entity h hread
  obtain ⟨others, hothers, hid, hrow⟩ := exists_fields hread h
  rw [read?_of_fields? hothers hid, hrow others _ fun _ _ => rfl, withId_id]

end ReadByField

open Format

instance : ReadByField Location where
  lead := ["id", "contentId", "parentId"]
  trailing := []
  readUnder? n fields := do
    return ⟨n, ← required asInt? fields "contentId", ← optional asInt? fields "parentId"⟩
  withId_id _ := rfl
  read?_eq _ := rfl
  readUnder?_eq h hrel := by
    obtain ⟨contentId, hcontent, h⟩ := Option.bind_eq_some_iff.1 h
    obtain ⟨parentId, hparent, h⟩ := Option.bind_eq_some_iff.1 h
    obtain rfl := Option.some.inj h
    have hcontent := Carries.asInt?.required (hrel "contentId" (by decide)) hcontent
    have hparent := Carries.asInt?.optional rfl (hrel "parentId" (by decide)) hparent
    refine ⟨rfl, fun m => ?_⟩
    rw [hcontent, hparent]
    rfl

instance : ReadByField Content where
  lead := ["id", "name", "ownerId"]
  trailing := ["locations"]
  readUnder? n fields := do
    return ⟨n, ← optional asString? fields "name", ← optional asInt? fields "ownerId",
      ← withDefault [] (asList? Location.read?) fields "locations"⟩
  withId_id _ := rfl
  read?_eq _ := rfl
  readUnder?_eq h hrel := by
    obtain ⟨name, hname, h⟩ := Option.bind_eq_some_iff.1 h
    obtain ⟨ownerId, howner, h⟩ := Option.bind_eq_some_iff.1 h
    obtain ⟨locations, hlocations, h⟩ := Option.bind_eq_some_iff.1 h
    obtain rfl := Option.some.inj h
    have hlocation : Carries Location.read? Location.read? := ReadByField.carries
    have hname := Carries.asString?.optional rfl (hrel "name" (by decide)) hname
    have howner := Carries.asInt?.optional rfl (hrel "ownerId" (by decide)) howner
    have hlocations := hlocation.asList?.withDefault (hrel "locations" (by decide)) hlocations
    refine ⟨rfl, fun m => ?_⟩
    rw [hname, howner, hlocations]
    rfl

instance : ReadByField ContentType where
  lead := ["id", "identifier", "contentTypeGroupIds"]
  trailing := []
  readUnder? n fields := do
    return ⟨n, ← required asString? fields "identifier",
      ← required (asList? asInt?) fields "contentTypeGroupIds"⟩
  withId_id _ := rfl
  read?_eq _ := rfl
  readUnder?_eq h hrel := by
    obtain ⟨identifier, hidentifier, h⟩ := Option.bind_eq_some_iff.1 h
    obtain ⟨groupIds, hgroups, h⟩ := Option.bind_eq_some_iff.1 h
    obtain rfl := Option.some.inj h
    have hidentifier := Carries.asString?.required (hrel "identifier" (by decide)) hidentifier
    have hgroups := Carries.asInt?.asList?.required (hrel "contentTypeGroupIds" (by decide)) hgroups
    refine ⟨rfl, fun m => ?_⟩
    rw [hidentifier, hgroups]
    rfl

end DocumentStore
