import DocumentStore.Join.Declared
import DocumentStore.Proofs.Fields
import DocumentStore.Proofs.Value.Equality

/-!
# The grammar of declared joins

What a document has to look like to declare joins, which joins it then declares, and where the fault
lies in one that does not. All of this is said entry by entry of the descriptors, without the reader
of declarations.

* `Join.IsDescriptor` are the values that declare a join, and `Join.Declares` is the join as the
  builder makes it: its collection, one `pair` for each entry of `match`, one `nest` for each entry
  of `sub`;
* `Join.DescriptorFault` is the first fault of any other value, and `Join.exists_describe_eq` says
  that its text names the attribute at fault;
* `Joins.toDocument` writes joins down.
-/

namespace DocumentStore

namespace Join

/-! ## Descriptors -/

/-- The descriptor names a collection. -/
def NamesCollection (descriptor : Document) : Prop :=
  ∃ collection, descriptor.get? "type" = some (.string collection)

/-- Where the descriptor has an entry `match`, it is a document that maps fields to names. -/
def MapsNames (descriptor : Document) : Prop :=
  ∀ value, descriptor.get? "match" = some value → ∃ mapping : Document, value = .document mapping ∧
    ∀ entry ∈ mapping, ∃ source, entry.2 = .string source

/-- A value that declares a join. -/
inductive IsDescriptor : Value → Prop
  /-- It declares no nested joins. -/
  | flat {descriptor : Document} (htype : NamesCollection descriptor)
      (hmatch : MapsNames descriptor)
      (hsub : descriptor.get? "sub" = none ∨ descriptor.get? "sub" = some .null) :
      IsDescriptor (.document descriptor)
  /-- It declares nested joins, by descriptors in turn. -/
  | nested {descriptor sub : Document} (htype : NamesCollection descriptor)
      (hmatch : MapsNames descriptor) (hsub : descriptor.get? "sub" = some (.document sub))
      (hall : ∀ entry ∈ sub, IsDescriptor entry.2) :
      IsDescriptor (.document descriptor)

/-! ## The joins that they declare -/

/-- The pairs that a descriptor lists under `match`, in order. -/
inductive ListsPairs (descriptor : Document) : List (String × String) → Prop
  | absent (h : descriptor.get? "match" = none) : ListsPairs descriptor []
  | mapping {pairs : List (String × String)}
      (h : descriptor.get? "match" =
        some (.document (pairs.map fun pair => (pair.1, .string pair.2)))) :
      ListsPairs descriptor pairs

/-- The join to a collection by the pairs of a list. -/
def ofPairs (collection : String) (pairs : List (String × String)) : Join :=
  pairs.foldl (fun join pair => join.pair pair.1 pair.2) (ofCollection collection)

mutual

/-- The join that a value declares. -/
inductive Declares : Value → Join → Prop
  | flat {descriptor : Document} {collection : String} {pairs : List (String × String)}
      (htype : descriptor.get? "type" = some (.string collection))
      (hmatch : ListsPairs descriptor pairs)
      (hsub : descriptor.get? "sub" = none ∨ descriptor.get? "sub" = some .null) :
      Declares (.document descriptor) (ofPairs collection pairs)
  | nested {descriptor sub : Document} {collection : String} {pairs : List (String × String)}
      {joins : List (String × Join)}
      (htype : descriptor.get? "type" = some (.string collection))
      (hmatch : ListsPairs descriptor pairs) (hsub : descriptor.get? "sub" = some (.document sub))
      (hall : DeclaresAll sub joins) :
      Declares (.document descriptor)
        (joins.foldl (fun join entry => join.nest entry.1 entry.2) (ofPairs collection pairs))

/-- The joins that the values of some entries declare, in order. -/
inductive DeclaresAll : List (String × Value) → List (String × Join) → Prop
  | nil : DeclaresAll [] []
  | cons {attr : String} {value : Value} {join : Join} {rest : List (String × Value)}
      {joins : List (String × Join)} (hfirst : Declares value join)
      (hrest : DeclaresAll rest joins) :
      DeclaresAll ((attr, value) :: rest) ((attr, join) :: joins)

end

theorem ofPairs_eq (collection : String) (pairs : List (String × String)) :
    ofPairs collection pairs = ⟨collection, pairs, []⟩ := by
  have happend (join : Join) : pairs.foldl (fun join pair => join.pair pair.1 pair.2) join =
      { join with pairs := join.pairs ++ pairs } := by
    induction pairs generalizing join with
    | nil =>
      cases join
      rw [List.foldl_nil, List.append_nil]
    | cons first rest ih =>
      rw [List.foldl_cons, ih, List.append_cons]
      rfl
  exact happend (ofCollection collection)

/-- Nested joins are kept as they are added, where none is added under an attribute of another. -/
theorem foldl_nest_of_nodup (collection : String) (pairs : List (String × String))
    {joins : List (String × Join)} (h : (Fields.names joins).Nodup) :
    joins.foldl (fun join entry => join.nest entry.1 entry.2) (ofPairs collection pairs) =
      ⟨collection, pairs, joins⟩ := by
  have hmerge (base : List (String × Join)) :
      joins.foldl (fun join entry => join.nest entry.1 entry.2) (Join.mk collection pairs base) =
        Join.mk collection pairs (Fields.merge base joins) := by
    clear h
    induction joins generalizing base with
    | nil => rfl
    | cons first rest ih =>
      rw [List.foldl_cons]
      exact ih _
  rw [ofPairs_eq, hmerge]
  show Join.mk collection pairs (Fields.ofPairs joins) = _
  rw [Fields.ofPairs_of_nodup h]

theorem DeclaresAll.names_eq {document : Document} {joins : List (String × Join)}
    (h : DeclaresAll document joins) : Fields.names joins = document.names := by
  induction document generalizing joins with
  | nil =>
    cases h
    rfl
  | cons entry rest ih =>
    cases h with
    | cons hfirst hrest => rw [Fields.names_cons, Fields.names_cons, ih hrest]

/-! ## Faults -/

/-- The first fault of a value that stands under an attribute and declares no join. Of the entries
of a document all before the one at fault are as they should be. -/
inductive DescriptorFault : String → Value → Fault → Prop
  | notDocument {attr : String} {value : Value} (h : ∀ fields, value ≠ .document fields) :
      DescriptorFault attr value (.declaredJoin attr .notDocument)
  | missingType {attr : String} {descriptor : Document} (h : ¬ NamesCollection descriptor) :
      DescriptorFault attr (.document descriptor) (.declaredJoin attr .missingType)
  | matchNotDocument {attr : String} {descriptor : Document} {value : Value}
      (htype : NamesCollection descriptor) (hmatch : descriptor.get? "match" = some value)
      (h : ∀ fields, value ≠ .document fields) :
      DescriptorFault attr (.document descriptor) (.declaredJoin attr .matchNotDocument)
  | sourceNotName {attr target : String} {descriptor front back : Document} {value : Value}
      (htype : NamesCollection descriptor)
      (hmatch : descriptor.get? "match" = some (.document (front ++ (target, value) :: back)))
      (hfront : ∀ entry ∈ front, ∃ source, entry.2 = .string source)
      (h : ∀ source, value ≠ .string source) :
      DescriptorFault attr (.document descriptor) (.declaredJoin attr (.sourceNotName target))
  | subNotDocument {attr : String} {descriptor : Document} {value : Value}
      (htype : NamesCollection descriptor) (hmatch : MapsNames descriptor)
      (hsub : descriptor.get? "sub" = some value) (hnull : value ≠ .null)
      (h : ∀ fields, value ≠ .document fields) :
      DescriptorFault attr (.document descriptor) (.declaredJoin attr .subNotDocument)
  | nested {attr inner : String} {descriptor front back : Document} {value : Value} {fault : Fault}
      (htype : NamesCollection descriptor) (hmatch : MapsNames descriptor)
      (hsub : descriptor.get? "sub" = some (.document (front ++ (inner, value) :: back)))
      (hfront : ∀ entry ∈ front, IsDescriptor entry.2) (h : DescriptorFault inner value fault) :
      DescriptorFault attr (.document descriptor) fault

theorem DescriptorFault.exists_eq_declaredJoin {attr : String} {value : Value} {fault : Fault}
    (h : DescriptorFault attr value fault) :
    ∃ inner cause, fault = .declaredJoin inner cause := by
  induction h with
  | nested _ _ _ _ _ ih => exact ih
  | _ => exact ⟨_, _, rfl⟩

/-- The text of a fault starts with the attribute that it is about. -/
theorem exists_describe_eq (attr : String) (cause : JoinFault) :
    ∃ rest, cause.describe attr = "join '" ++ attr ++ "'" ++ rest := by
  have hsplit : "' must map '" = "'" ++ " must map '" := by decide
  cases cause with
  | notDocument => exact ⟨" must be a document", by simp [JoinFault.describe, String.append_assoc]⟩
  | missingType =>
    exact ⟨" is missing a string 'type'", by simp [JoinFault.describe, String.append_assoc]⟩
  | sourceNotName target =>
    refine ⟨" must map '" ++ target ++ "' to a field name", ?_⟩
    rw [JoinFault.describe, hsplit]
    simp only [String.append_assoc]
  | matchNotDocument =>
    exact ⟨" has a 'match' that is not a document",
      by simp [JoinFault.describe, String.append_assoc]⟩
  | subNotDocument =>
    exact ⟨" has a 'sub' that is not a document",
      by simp [JoinFault.describe, String.append_assoc]⟩

/-! ## Writing joins down -/

mutual

/-- The descriptor of a join. -/
def toDescriptor : Join → Value
  | ⟨collection, pairs, joins⟩ => .document [("type", .string collection),
    ("match", .document (Fields.ofPairs (pairs.map fun pair => (pair.1, .string pair.2)))),
    ("sub", .document (Fields.ofPairs (toDescriptors joins)))]

/-- The descriptors of joins, by their attributes. -/
def toDescriptors : List (String × Join) → List (String × Value)
  | [] => []
  | (attr, join) :: rest => (attr, toDescriptor join) :: toDescriptors rest

end

mutual

/-- At no depth does a join give a target field or an attribute twice. -/
def Distinct : Join → Prop
  | ⟨_, pairs, joins⟩ =>
    (Fields.names pairs).Nodup ∧ (Fields.names joins).Nodup ∧ AllDistinct joins

/-- None of some joins gives a target field or an attribute twice. -/
def AllDistinct : List (String × Join) → Prop
  | [] => True
  | (_, join) :: rest => Distinct join ∧ AllDistinct rest

end

theorem names_toDescriptors (joins : List (String × Join)) :
    Fields.names (toDescriptors joins) = Fields.names joins := by
  induction joins with
  | nil => rfl
  | cons entry rest ih => rw [toDescriptors, Fields.names_cons, Fields.names_cons, ih]

end Join

namespace Joins

/-- At no depth do joins give a target field or an attribute twice. -/
def Distinct (joins : Joins) : Prop := joins.names.Nodup ∧ Join.AllDistinct joins

/-- The document that declares joins, each by its descriptor. -/
def toDocument (joins : Joins) : Document := Fields.ofPairs (Join.toDescriptors joins)

end Joins

end DocumentStore
