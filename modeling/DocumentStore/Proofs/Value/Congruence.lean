import DocumentStore.Proofs.Value.Equivalence

/-!
# What loose equality does not see

Loose equality does not tell values apart that are strictly equal, or that differ in the order of fields
alone. Neither of the two contains the other: strict equality takes one zero for the other, and
a value that holds a NaN is not equal to itself but can be reordered all the same.

* `agrees_congr`: strictly equal values are loosely equal to the same values;
* `Reorders` is one permutation of the fields of a document that stands anywhere inside a value, and
  `Reordered` is any number of them;
* `Reordered.agrees_left` and `Reordered.agrees_right`: reordered values, too, are loosely equal to the
  same values.
-/

namespace DocumentStore.Value

variable {a b c v w : Value}

/-! ## Strictly equal values -/

/-- Loose equality goes over from a value to those that are strictly equal to it. -/
theorem agrees_of_equal_of_agrees (hab : a.equal b = true) (hbc : b.agrees c = true) :
    a.agrees c = true := by
  induction a using Value.induction generalizing b c with
  | array items ih =>
    rw [equal_array_iff] at hab
    obtain ⟨others, rfl, hothers⟩ := hab
    rw [agrees_array_iff] at hbc ⊢
    obtain ⟨thirds, rfl, hthirds⟩ := hbc
    exact ⟨thirds, rfl, forall₂_trans hothers hthirds ih⟩
  | document fields ih =>
    rw [equal_document_iff] at hab
    obtain ⟨other, rfl, hlength, hother⟩ := hab
    rw [agrees_document_iff] at hbc ⊢
    obtain ⟨third, rfl, hlength', hthird⟩ := hbc
    exact ⟨third, rfl, hlength.trans hlength', hother.trans hthird ih⟩
  | int32 | int64 | double => exact agrees_trans_number rfl (agrees_of_equal hab) hbc
  | scopedCode | boolean | atom =>
    rw [agrees_of_isStrict (IsStrict.right (by trivial) hab)] at hbc
    rw [agrees_of_isStrict (by trivial)]
    exact equal_trans hab hbc
  | null | undefined | string =>
    have hsame := (equal_iff_eq (by trivial)).1 hab
    rwa [← hsame] at hbc

theorem agrees_congr (ha : a.WellFormed) (hb : b.WellFormed) (h : a.equal b = true) (c : Value) :
    a.agrees c = b.agrees c := by
  rw [Bool.eq_iff_iff]
  constructor
  · exact agrees_of_equal_of_agrees (equal_symm ha hb h)
  · exact agrees_of_equal_of_agrees h

/-! ## Reordered values -/

/-- One document inside a value, at whatever depth, gets its fields in another order. -/
inductive Reorders : Value → Value → Prop
  | fields {fields other : Document} :
    fields.Perm other → Reorders (document fields) (document other)
  | scope {text : String} {scope other : Document} :
    scope.Perm other → Reorders (scopedCode text scope) (scopedCode text other)
  | item {front back : List Value} {v w : Value} :
    Reorders v w → Reorders (array (front ++ v :: back)) (array (front ++ w :: back))
  | field {front back : Document} {name : String} {v w : Value} : Reorders v w →
    Reorders (document (front ++ (name, v) :: back)) (document (front ++ (name, w) :: back))
  | captured {text : String} {front back : Document} {name : String} {v w : Value} : Reorders v w →
    Reorders (scopedCode text (front ++ (name, v) :: back))
      (scopedCode text (front ++ (name, w) :: back))

/-- Two values differ at most in the order in which documents inside them list their fields. -/
def Reordered : Value → Value → Prop := Relation.ReflTransGen Reorders

/-! ### One step -/

section

variable (related : Value → Value → Prop)

theorem forall₂_replace_iff (h : ∀ z, related v z ↔ related w z) {front back others : List Value} :
    List.Forall₂ related (front ++ v :: back) others ↔
      List.Forall₂ related (front ++ w :: back) others := by
  induction front generalizing others with
  | nil => simp only [List.nil_append, List.forall₂_cons_left_iff, h]
  | cons first front ih => simp only [List.cons_append, List.forall₂_cons_left_iff, ih]

theorem matched_replace_iff (h : ∀ z, related v z ↔ related w z) {name : String}
    {front back other : Document} :
    Fields.Matched related (front ++ (name, v) :: back) other ↔
      Fields.Matched related (front ++ (name, w) :: back) other := by
  simp only [Fields.Matched, List.forall_mem_append, List.forall_mem_cons, h]

variable {related} in
theorem matched_perm_iff {fields reordered other : Document} (h : fields.Perm reordered) :
    Fields.Matched related fields other ↔ Fields.Matched related reordered other := by
  simp only [Fields.Matched, h.mem_iff]

end

namespace Reorders

theorem wellFormed (h : Reorders v w) (hv : v.WellFormed) : w.WellFormed := by
  induction h with
  | fields hperm | scope hperm =>
    rw [WellFormed, fieldsWellFormed_iff] at hv ⊢
    exact ⟨(hperm.map Prod.fst).nodup hv.1, fun entry hentry => hv.2 entry (hperm.mem_iff.2 hentry)⟩
  | item _ ih =>
    rw [WellFormed, allWellFormed_iff, List.forall_mem_append, List.forall_mem_cons] at hv ⊢
    exact ⟨hv.1, ih hv.2.1, hv.2.2⟩
  | field _ ih | captured _ ih =>
    simp only [WellFormed, fieldsWellFormed_iff, List.forall_mem_append, List.forall_mem_cons,
      Fields.names, List.map_append, List.map_cons] at hv ⊢
    exact ⟨hv.1, hv.2.1, ih hv.2.2.1, hv.2.2.2⟩

theorem equal_iff (h : Reorders v w) (b : Value) : v.equal b = true ↔ w.equal b = true := by
  induction h generalizing b with
  | fields hperm =>
    simp only [equal_document_iff, hperm.length_eq, matched_perm_iff hperm]
  | scope hperm =>
    simp only [equal_scopedCode_iff, hperm.length_eq, matched_perm_iff hperm]
  | item _ ih => simp only [equal_array_iff, forall₂_replace_iff (fun x y => x.equal y = true) ih]
  | field _ ih =>
    simp only [equal_document_iff, List.length_append, List.length_cons,
      matched_replace_iff (fun x y => x.equal y = true) ih]
  | captured _ ih =>
    simp only [equal_scopedCode_iff, List.length_append, List.length_cons,
      matched_replace_iff (fun x y => x.equal y = true) ih]

theorem agrees_iff (h : Reorders v w) (b : Value) : v.agrees b = true ↔ w.agrees b = true := by
  induction h generalizing b with
  | fields hperm =>
    simp only [agrees_document_iff, hperm.length_eq, matched_perm_iff hperm]
  | item _ ih => simp only [agrees_array_iff, forall₂_replace_iff (fun x y => x.agrees y = true) ih]
  | field _ ih =>
    simp only [agrees_document_iff, List.length_append, List.length_cons,
      matched_replace_iff (fun x y => x.agrees y = true) ih]
  | scope hperm =>
    -- the variables of a program are compared strictly
    rw [agrees_of_isStrict (by trivial), agrees_of_isStrict (by trivial)]
    exact equal_iff (.scope hperm) b
  | captured hinner _ =>
    rw [agrees_of_isStrict (by trivial), agrees_of_isStrict (by trivial)]
    exact equal_iff (.captured hinner) b

end Reorders

/-! ### Any number of steps -/

namespace Reordered

theorem wellFormed (h : Reordered v w) (hv : v.WellFormed) : w.WellFormed := by
  induction h with
  | refl => exact hv
  | tail _ hstep ih => exact hstep.wellFormed ih

theorem agrees_left (h : Reordered v w) (b : Value) : v.agrees b = w.agrees b := by
  rw [Bool.eq_iff_iff]
  induction h with
  | refl => exact Iff.rfl
  | tail _ hstep ih => exact ih.trans (hstep.agrees_iff b)

theorem agrees_right (h : Reordered v w) (hv : v.WellFormed) (ha : a.WellFormed) :
    a.agrees v = a.agrees w := by
  rw [agrees_comm ha hv, agrees_comm ha (h.wellFormed hv), h.agrees_left]

end Reordered

end DocumentStore.Value
