import DocumentStore.Entity.Content
import DocumentStore.Entity.ContentType
import DocumentStore.Identifier
import DocumentStore.Proofs.Fields

/-!
# Reading what was written

An entity is written as an object with one field for each of its parts. It is read from any object
that has these fields with these values, whatever else the object holds.

* `LawfulFormat` is what a format has to promise: each sort of data is recognised as it was written;
* `Described` is what the types of entities have in common, and `Content`, `Location` and
  `ContentType` are such types;
* `Described.read?_write`: in every lawful format an entity is read as it was written.
-/

namespace DocumentStore

/-- A format in which data of each sort is recognised as it was written. -/
class LawfulFormat (φ : Type) [Format φ] : Prop where
  isNull_null : Format.isNull (Format.null : φ) = true
  isNull_int (n : Int64) : Format.isNull (Format.int n : φ) = false
  isNull_string (text : String) : Format.isNull (Format.string text : φ) = false
  asInt?_int (n : Int64) : Format.asInt? (Format.int n : φ) = some n
  asString?_string (text : String) : Format.asString? (Format.string text : φ) = some text
  asArray?_array (items : List φ) : Format.asArray? (Format.array items) = some items
  asObject?_object {fields : Fields φ} (h : fields.names.Nodup) :
    ∃ found, Format.asObject? (Format.object fields) = some found ∧
      ∀ name, Fields.get? found name = fields.get? name

instance : LawfulFormat Value where
  isNull_null := rfl
  isNull_int _ := rfl
  isNull_string _ := rfl
  asInt?_int _ := rfl
  asString?_string _ := rfl
  asArray?_array _ := rfl
  asObject?_object {fields} _ := ⟨fields, rfl, fun _ => rfl⟩

namespace Format

variable {φ α : Type} [Format φ] {fields : Fields φ} {name : String}

theorem fields?_of_asObject? {data : φ} (h : asObject? data = some fields)
    (names trailing : List String) : fields? names trailing data = some fields := by
  unfold fields?
  rw [h]

omit [Format φ] in
theorem required_of_get? {read? : φ → Option α} {data : φ} {value : α}
    (hget : fields.get? name = some data) (hread : read? data = some value) :
    required read? fields name = some value := by
  rw [required, hget, Option.bind_some, hread]

omit [Format φ] in
theorem withDefault_of_get? {read? : φ → Option α} {data : φ} {value : α} (default : α)
    (hget : fields.get? name = some data) (hread : read? data = some value) :
    withDefault default read? fields name = some value := by
  unfold withDefault
  rw [hget]
  exact hread

/-- A value that may be absent is read as it was written, where null is not a value itself. -/
theorem optional_of_get? [LawfulFormat φ] {write : α → φ} {read? : φ → Option α}
    (hnull : ∀ value, isNull (write value) = false) (hread : ∀ value, read? (write value) = some value)
    {value : Option α} (hget : fields.get? name = some (option write value)) :
    optional read? fields name = some value := by
  unfold optional
  rw [hget]
  cases value with
  | none => exact if_pos LawfulFormat.isNull_null
  | some value =>
    show (if isNull (write value) then some none else (read? (write value)).map some) = _
    rw [hnull, hread]
    rfl

theorem asList?_list [LawfulFormat φ] {write : α → φ} {read? : φ → Option α}
    (hread : ∀ value, read? (write value) = some value) (values : List α) :
    asList? read? (list write values) = some values := by
  rw [asList?, list, LawfulFormat.asArray?_array, Option.bind_some]
  induction values with
  | nil => rfl
  | cons value rest ih =>
    rw [List.map_cons, List.mapM_cons, hread, ih]
    rfl

end Format

/-! ## Types of entities -/

/-- A type of entities that are written as a fixed row of fields, the identifier in front. -/
class Described (α : Type) [Entity α] where
  /-- The names of the fields behind the identifier, in order. -/
  names : List String
  /-- The identifier of an entity. -/
  id : α → Int64
  /-- The same entity under another identifier. -/
  withId : α → Int64 → α
  /-- The fields behind the identifier as they are written. -/
  others {φ : Type} [Format φ] : α → Fields φ
  nodup_names : (idField :: names).Nodup
  id_withId (entity : α) (n : Int64) : id (withId entity n) = n
  others_withId {φ : Type} [Format φ] (entity : α) (n : Int64) :
    (others (withId entity n) : Fields φ) = others entity
  names_others {φ : Type} [Format φ] (entity : α) : (others entity : Fields φ).names = names
  write_eq {φ : Type} [Format φ] (entity : α) :
    (Entity.write entity : φ) = Format.object ((idField, Format.int (id entity)) :: others entity)
  /-- An entity is read from every object that has its fields. -/
  read?_eq {φ : Type} [Format φ] [LawfulFormat φ] (entity : α) {data : φ} {found : Fields φ}
    (hdata : Format.asObject? data = some found)
    (hid : found.get? idField = some (Format.int (id entity)))
    (hothers : ∀ name ∈ names, found.get? name = (others entity).get? name) :
    Entity.read? data = some entity

namespace Described

variable {α φ : Type} [Entity α] [Described α]

theorem ne_of_mem_names {name : String} (h : name ∈ names α) : idField ≠ name := fun heq =>
  (List.nodup_cons.1 nodup_names).1 (heq ▸ h)

/-- In every lawful format an entity is read as it was written. -/
theorem read?_write [Format φ] [LawfulFormat φ] (entity : α) :
    Entity.read? (Entity.write entity : φ) = some entity := by
  have hnames : Fields.names ((idField, (Format.int (id entity) : φ)) :: others entity) =
      idField :: names α := by
    rw [Fields.names_cons, names_others]
  obtain ⟨found, hdata, hget⟩ := LawfulFormat.asObject?_object (hnames ▸ nodup_names)
  rw [write_eq]
  refine read?_eq entity hdata ?_ fun name hname => ?_
  · rw [hget, Fields.get?_cons, if_pos rfl]
  · rw [hget, Fields.get?_cons, if_neg (ne_of_mem_names hname)]

end Described

open Format LawfulFormat

instance : Described Location where
  names := ["contentId", "parentId"]
  id := Location.id
  withId location n := { location with id := n }
  others location := [("contentId", int location.contentId),
    ("parentId", option int location.parentId)]
  nodup_names := by decide
  id_withId _ _ := rfl
  others_withId _ _ := rfl
  names_others _ := rfl
  write_eq _ := rfl
  read?_eq {φ} _ _ location data found hdata hid hothers := by
    have hcontent : found.get? "contentId" = some (int location.contentId) :=
      hothers "contentId" (by decide)
    have hparent : found.get? "parentId" = some (option int location.parentId) :=
      hothers "parentId" (by decide)
    show Location.read? data = some location
    rw [Location.read?, fields?_of_asObject? hdata]
    show (do return ⟨← required asInt? found idField, ← required asInt? found "contentId",
      ← optional asInt? found "parentId"⟩ : Option Location) = some location
    rw [required_of_get? hid (asInt?_int _), required_of_get? hcontent (asInt?_int _),
      optional_of_get? isNull_int asInt?_int hparent]
    rfl

instance : Described Content where
  names := ["name", "ownerId", "locations"]
  id := Content.id
  withId content n := { content with id := n }
  others content := [("name", option string content.name),
    ("ownerId", option int content.ownerId), ("locations", list Location.write content.locations)]
  nodup_names := by decide
  id_withId _ _ := rfl
  others_withId _ _ := rfl
  names_others _ := rfl
  write_eq _ := rfl
  read?_eq {φ} _ _ content data found hdata hid hothers := by
    have hname : found.get? "name" = some (option string content.name) :=
      hothers "name" (by decide)
    have howner : found.get? "ownerId" = some (option int content.ownerId) :=
      hothers "ownerId" (by decide)
    have hlocations : found.get? "locations" = some (list Location.write content.locations) :=
      hothers "locations" (by decide)
    have hread (location : Location) :
        Location.read? (Location.write location : φ) = some location :=
      Described.read?_write location
    show Content.read? data = some content
    rw [Content.read?, fields?_of_asObject? hdata]
    show (do return ⟨← required asInt? found idField, ← optional asString? found "name",
      ← optional asInt? found "ownerId",
      ← withDefault [] (asList? Location.read?) found "locations"⟩ : Option Content) = some content
    rw [required_of_get? hid (asInt?_int _), optional_of_get? isNull_string asString?_string hname,
      optional_of_get? isNull_int asInt?_int howner,
      withDefault_of_get? [] hlocations (asList?_list hread content.locations)]
    rfl

instance : Described ContentType where
  names := ["identifier", "contentTypeGroupIds"]
  id := ContentType.id
  withId type n := { type with id := n }
  others type := [("identifier", string type.identifier),
    ("contentTypeGroupIds", list int type.groupIds)]
  nodup_names := by decide
  id_withId _ _ := rfl
  others_withId _ _ := rfl
  names_others _ := rfl
  write_eq _ := rfl
  read?_eq {φ} _ _ type data found hdata hid hothers := by
    have hidentifier : found.get? "identifier" = some (string type.identifier) :=
      hothers "identifier" (by decide)
    have hgroups : found.get? "contentTypeGroupIds" = some (list int type.groupIds) :=
      hothers "contentTypeGroupIds" (by decide)
    show ContentType.read? data = some type
    rw [ContentType.read?, fields?_of_asObject? hdata]
    show (do return ⟨← required asInt? found idField, ← required asString? found "identifier",
      ← required (asList? asInt?) found "contentTypeGroupIds"⟩ : Option ContentType) = some type
    rw [required_of_get? hid (asInt?_int _), required_of_get? hidentifier (asString?_string _),
      required_of_get? hgroups (asList?_list asInt?_int type.groupIds)]
    rfl

end DocumentStore
