import DocumentStore.Json.Record
import DocumentStore.Proofs.Except
import DocumentStore.Proofs.Fields

/-!
# Which JSON values are records

A JSON object stands for a document under the names of its members, unless it is one of the small
objects that denote a value of another kind. Which ones these are is for the extension to say; all of
this holds of every extension.

* `checks_toValue`: a conversion fails by the first integer that is too large, and by nothing else;
* `paired_memberValues`: it turns the members into fields of the same names, one by one;
* `not_denotes`: only small objects of names with a dollar sign denote a value;
* `toRecord_iff`: which JSON values become records, and by which fault all others fail.
-/

namespace DocumentStore.Json

/-! ## The integers in a value -/

mutual

/-- The integers that a value holds, at any depth and in order. -/
def integers : Json → List Int
  | integer n => [n]
  | array items => itemIntegers items
  | object members => memberIntegers members
  | _ => []

/-- The integers in the items of an array. -/
def itemIntegers : List Json → List Int
  | [] => []
  | item :: rest => integers item ++ itemIntegers rest

/-- The integers in the members of an object. -/
def memberIntegers : List (String × Json) → List Int
  | [] => []
  | (_, member) :: rest => integers member ++ memberIntegers rest

end

/-- The first integer of a row that does not fit into sixty-four bits. -/
def tooLarge? (row : List Int) : Option Int := row.find? fun n => !Number.fits n

theorem tooLarge?_eq_none_iff {row : List Int} :
    tooLarge? row = none ↔ ∀ n ∈ row, Number.fits n = true := by
  simp [tooLarge?]

/-- A computation that fails by the first integer of a row that is too large, and by nothing
else. -/
def Checks {α : Type} (x : Except Fault α) (row : List Int) : Prop :=
  ∀ fault, x = .error fault ↔ ∃ n, tooLarge? row = some n ∧ fault = .integerTooLarge n

namespace Checks

variable {α β : Type} {x : Except Fault α} {f : α → Except Fault β} {row behind : List Int}

theorem ok (a : α) : Checks (.ok a) [] := by
  intro fault
  simp [tooLarge?]

/-- It succeeds where all integers of the row fit. -/
theorem succeeds_iff (h : Checks x row) : (∃ a, x = .ok a) ↔ ∀ n ∈ row, Number.fits n = true := by
  rw [← tooLarge?_eq_none_iff]
  cases hx : x with
  | ok a =>
    have hnone : tooLarge? row = none := by
      refine Option.eq_none_iff_forall_ne_some.2 fun n hn => ?_
      cases hx.symm.trans ((h _).2 ⟨n, hn, rfl⟩)
    simpa using hnone
  | error fault =>
    obtain ⟨n, hn, -⟩ := (h fault).1 hx
    simp [hn]

/-- Steps check their rows one behind the other. -/
theorem bind (h : Checks x row) (hf : ∀ a, Checks (f a) behind) :
    Checks (x >>= f) (row ++ behind) := by
  intro fault
  have happend : tooLarge? (row ++ behind) = (tooLarge? row).or (tooLarge? behind) :=
    List.find?_append
  rw [bind_eq_error_iff, happend]
  cases hrow : tooLarge? row with
  | some n =>
    have hfirst (fault : Fault) : x = .error fault ↔ fault = .integerTooLarge n := by
      rw [h fault, hrow]
      simp
    have hx := (hfirst _).2 rfl
    rw [hfirst, hx]
    simp
  | none =>
    obtain ⟨a, ha⟩ := h.succeeds_iff.2 (tooLarge?_eq_none_iff.1 hrow)
    rw [ha]
    simpa using hf a fault

theorem map (h : Checks x row) (g : α → β) : Checks (x >>= fun a => .ok (g a)) row := by
  have hbind := h.bind fun a => ok (g a)
  rwa [List.append_nil] at hbind

end Checks

namespace Extension

variable {ext : Extension}

mutual

/-- A conversion fails by the first integer that is too large, and by nothing else. -/
theorem checks_toValue : (json : Json) → Checks (ext.toValue json) json.integers
  | .null => .ok _
  | .boolean _ => .ok _
  | .double _ => .ok _
  | .string _ => .ok _
  | .integer n => by
    intro fault
    by_cases hfits : Number.fits n <;> simp [toValue, integers, tooLarge?, hfits, eq_comm]
  | .array items => (checks_itemValues items).map _
  | .object members => (checks_memberValues members).map _

theorem checks_itemValues :
    (items : List Json) → Checks (ext.itemValues items) (itemIntegers items)
  | [] => .ok _
  | item :: rest => (checks_toValue item).bind fun _ => (checks_itemValues rest).map _

theorem checks_memberValues :
    (members : List (String × Json)) → Checks (ext.memberValues members) (memberIntegers members)
  | [] => .ok _
  | (_, member) :: rest => (checks_toValue member).bind fun _ => (checks_memberValues rest).map _

end

/-! ## The members of an object -/

/-- Each member becomes one field, under its name. -/
theorem paired_memberValues {members : List (String × Json)} {values : Document}
    (h : ext.memberValues members = .ok values) :
    Fields.Paired (fun json value => ext.toValue json = .ok value) members values := by
  induction members generalizing values with
  | nil =>
    obtain rfl := Except.ok.inj h
    exact .nil
  | cons member rest ih =>
    obtain ⟨value, hvalue, h⟩ := bind_eq_ok_iff.1 h
    obtain ⟨others, hothers, h⟩ := bind_eq_ok_iff.1 h
    obtain rfl := Except.ok.inj h
    exact .cons ⟨rfl, hvalue⟩ (ih hothers)

/-! ## Records -/

/-- The value is an object that denotes a value of another kind than a document. -/
def Denotes (ext : Extension) (json : Json) (value : Value) : Prop :=
  ∃ members values, json = .object members ∧ ext.memberValues members = .ok values ∧
    ext.denoted? values = some value

variable {json : Json} {record : Document} {value : Value} {fault : Fault}

theorem toRecord_eq_ok_iff :
    ext.toRecord json = .ok record ↔ ext.toValue json = .ok (.document record) := by
  unfold toRecord
  cases ext.toValue json with
  | error => simp [Except.bind]
  | ok value => cases value <;> simp [Except.bind]

theorem toRecord_eq_error_iff : ext.toRecord json = .error fault ↔ ext.toValue json = .error fault ∨
    ∃ value, ext.toValue json = .ok value ∧ (∀ fields, value ≠ .document fields) ∧
      fault = .notRecord value.kind := by
  unfold toRecord
  cases ext.toValue json with
  | error => simp [Except.bind]
  | ok value => cases value <;> simp [Except.bind, eq_comm]

theorem toValue_object_eq_ok_iff {members : List (String × Json)} :
    ext.toValue (.object members) = .ok value ↔
      ∃ values, ext.memberValues members = .ok values ∧ ext.ofMembers values = value := by
  rw [toValue, bind_eq_ok_iff]
  exact exists_congr fun values => and_congr_right fun _ => ⟨Except.ok.inj, congrArg _⟩

/-- What an object denotes is its value. -/
theorem Denotes.toValue_eq (h : ext.Denotes json value) : ext.toValue json = .ok value := by
  obtain ⟨members, values, rfl, hvalues, hvalue⟩ := h
  refine toValue_object_eq_ok_iff.2 ⟨values, hvalues, ?_⟩
  rw [ofMembers, hvalue, Option.getD_some]

theorem Denotes.ne_document (h : ext.Denotes json value) (fields : Document) :
    value ≠ .document fields := by
  obtain ⟨_, _, _, _, hvalue⟩ := h
  exact ext.ne_document hvalue fields

/-- An object that denotes no other value is a document under the names of its members. -/
theorem toValue_object_of_not_denotes {members : List (String × Json)}
    (h : ext.toValue (.object members) = .ok value) (hnot : ¬ ext.Denotes (.object members) value) :
    ∃ fields, value = .document fields ∧ Fields.names fields = Fields.names members := by
  obtain ⟨values, hvalues, hof⟩ := toValue_object_eq_ok_iff.1 h
  refine ⟨values, ?_, (paired_memberValues hvalues).names_eq⟩
  cases hvalue : ext.denoted? values with
  | none => rw [← hof, ofMembers, hvalue, Option.getD_none]
  | some denoted =>
    rw [ofMembers, hvalue, Option.getD_some] at hof
    exact absurd ⟨members, values, rfl, hvalues, hof ▸ hvalue⟩ hnot

/-- What is no object is no document. -/
theorem ne_document_of_not_object (h : ext.toValue json = .ok value)
    (hnot : ∀ members, json ≠ .object members) (fields : Document) : value ≠ .document fields := by
  rintro rfl
  cases json with
  | object members => exact hnot members rfl
  | null | boolean | double | string => cases h
  | integer n =>
    rw [toValue] at h
    split at h <;> cases h
  | array items =>
    rw [toValue, bind_eq_ok_iff] at h
    obtain ⟨_, _, h⟩ := h
    cases h

/-- A value that is no document belongs to no object, or to one that denotes it. -/
theorem ne_document_iff (h : ext.toValue json = .ok value) : (∀ fields, value ≠ .document fields) ↔
    (∀ members, json ≠ .object members) ∨ ext.Denotes json value := by
  constructor
  · intro hne
    refine or_iff_not_imp_right.2 fun hnot => ?_
    rintro members rfl
    obtain ⟨fields, hvalue, -⟩ := toValue_object_of_not_denotes h hnot
    exact hne fields hvalue
  · rintro (hnot | hdenotes)
    · exact ne_document_of_not_object h hnot
    · exact hdenotes.ne_document

/-- Objects of three members denote nothing, and neither do those with a name that does not start
with a dollar sign. -/
theorem not_denotes {members : List (String × Json)}
    (h : 2 < members.length ∨ ∃ name ∈ Fields.names members, name.toList.head? ≠ some '$') :
    ¬ ext.Denotes (.object members) value := by
  rintro ⟨_, values, ⟨⟩, hvalues, hvalue⟩
  have hlength := ext.length_le hvalue
  have hdollar := ext.head?_eq hvalue
  have hnames := (paired_memberValues hvalues).names_eq
  rcases h with hlong | ⟨name, hname, hother⟩
  · have hsame := congrArg List.length hnames
    simp only [Fields.names, List.length_map] at hsame
    omega
  · exact hother (hdollar name (hnames ▸ hname))

/-- A record comes from an object alone and has the names of its members. -/
theorem names_toRecord (h : ext.toRecord json = .ok record) :
    ∃ members, json = .object members ∧ Fields.names record = Fields.names members := by
  have hvalue := toRecord_eq_ok_iff.1 h
  by_cases hobject : ∃ members, json = .object members
  · obtain ⟨members, rfl⟩ := hobject
    obtain ⟨fields, hfields, hnames⟩ :=
      toValue_object_of_not_denotes hvalue fun hdenotes => hdenotes.ne_document record rfl
    obtain rfl := Value.document.inj hfields
    exact ⟨members, rfl, hnames⟩
  · exact absurd rfl (ne_document_of_not_object hvalue (not_exists.1 hobject) record)

theorem toRecord_succeeds_iff : (∃ record, ext.toRecord json = .ok record) ↔
    (∃ members, json = .object members) ∧ (∀ n ∈ json.integers, Number.fits n = true) ∧
      ¬ ∃ value, ext.Denotes json value := by
  constructor
  · rintro ⟨record, h⟩
    have hvalue := toRecord_eq_ok_iff.1 h
    obtain ⟨members, hobject, -⟩ := names_toRecord h
    refine ⟨⟨members, hobject⟩, (checks_toValue json).succeeds_iff.1 ⟨_, hvalue⟩, ?_⟩
    rintro ⟨value, hdenotes⟩
    have hsame := Except.ok.inj (hdenotes.toValue_eq.symm.trans hvalue)
    exact hdenotes.ne_document record hsame
  · rintro ⟨⟨members, rfl⟩, hfits, hnot⟩
    obtain ⟨value, hvalue⟩ := (checks_toValue (.object members)).succeeds_iff.2 hfits
    obtain ⟨fields, rfl, -⟩ := toValue_object_of_not_denotes hvalue (not_exists.1 hnot value)
    exact ⟨fields, toRecord_eq_ok_iff.2 hvalue⟩

/-- Which JSON values become records, and by which fault all others fail, under any extension.

A record comes from an object alone and has the names of its members. An object becomes one exactly
when all integers in it fit into sixty-four bits and it denotes no value of another kind; in
particular one of three members, or with a name that does not start with a dollar sign. Otherwise
the fault is the first integer that is too large, and where there is none, that the value is no
document: because it is no object, or because the object denotes another value. -/
theorem toRecord_iff (ext : Extension) (json : Json) :
    (∀ record, ext.toRecord json = .ok record →
      ∃ members, json = .object members ∧ Fields.names record = Fields.names members) ∧
    ((∃ record, ext.toRecord json = .ok record) ↔ (∃ members, json = .object members) ∧
      (∀ n ∈ json.integers, Number.fits n = true) ∧ ¬ ∃ value, ext.Denotes json value) ∧
    (∀ members, json = .object members →
      2 < members.length ∨ (∃ name ∈ Fields.names members, name.toList.head? ≠ some '$') →
        ¬ ∃ value, ext.Denotes json value) ∧
    ∀ fault, ext.toRecord json = .error fault ↔
      (∃ n, json.integers.find? (fun n => !Number.fits n) = some n ∧ fault = .integerTooLarge n) ∨
      ∃ value, ext.toValue json = .ok value ∧
        ((∀ members, json ≠ .object members) ∨ ext.Denotes json value) ∧
          fault = .notRecord value.kind := by
  refine ⟨fun record h => names_toRecord h, toRecord_succeeds_iff, ?_, fun fault => ?_⟩
  · rintro members rfl h ⟨value, hdenotes⟩
    exact not_denotes h hdenotes
  · rw [toRecord_eq_error_iff, checks_toValue json fault]
    refine or_congr_right (exists_congr fun value => and_congr_right fun hvalue => ?_)
    rw [ne_document_iff hvalue]

/-- An object that holds no integer at all, and yet is no record under the standard extension. -/
theorem toRecord_symbol :
    (object [("$symbol", .string "a")]).integers = [] ∧
    standard.Denotes (object [("$symbol", .string "a")]) (.atom (.symbol "a")) ∧
    (object [("$symbol", .string "a")]).toRecord = .error (.notRecord .symbol) ∧
    (Fault.notRecord .symbol).kind = .invalidRecord :=
  ⟨rfl, ⟨_, _, rfl, rfl, rfl⟩, rfl, rfl⟩

end Extension

end DocumentStore.Json
