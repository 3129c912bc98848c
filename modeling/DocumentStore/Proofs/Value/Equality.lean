import DocumentStore.Proofs.Fields
import DocumentStore.Value.Loose
import Mathlib.Data.List.Nodup
import Mathlib.Data.List.Perm.Subperm

/-!
# Laws of the two equalities

Strict and loose equality both walk through the left of two values. Neither depends on which of the
two that is, as long as no document inside them names a field twice.

* `Value.induction` is the induction over all values that are nested in a value;
* `Fields.Matched.symm`: of two documents with as many fields, where each field of the first has a
  counterpart in the second, it is so the other way round;
* `equal_comm` and `agrees_comm` are the two symmetries.
-/

namespace DocumentStore

/-! ## Nested values -/

/-- What holds of a value whenever it holds of all values right inside it holds of every value. -/
@[elab_as_elim]
theorem Value.induction {motive : Value → Prop}
    (array : ∀ items, (∀ item ∈ items, motive item) → motive (.array items))
    (document : ∀ fields, (∀ entry ∈ fields, motive entry.2) → motive (.document fields))
    (scopedCode : ∀ text scope, (∀ entry ∈ scope, motive entry.2) → motive (.scopedCode text scope))
    (null : motive .null) (undefined : motive .undefined) (boolean : ∀ b, motive (.boolean b))
    (int32 : ∀ n, motive (.int32 n)) (int64 : ∀ n, motive (.int64 n))
    (double : ∀ x, motive (.double x)) (string : ∀ text, motive (.string text))
    (atom : ∀ a, motive (.atom a)) (value : Value) : motive value := by
  have inside {entry : String × Value} {fields : List (String × Value)} (h : entry ∈ fields) :
      sizeOf entry.2 < sizeOf fields := by
    have hentry := List.sizeOf_lt_of_mem h
    obtain ⟨name, value⟩ := entry
    rw [Prod.mk.sizeOf_spec] at hentry
    show sizeOf value < sizeOf fields
    omega
  -- by the size of the value, which contains all that is inside it
  suffices hsize : ∀ size value, sizeOf value < size → motive value from
    hsize _ value (Nat.lt_succ_self _)
  intro size
  induction size with
  | zero => intro value h; omega
  | succ size ih =>
    intro value h
    cases value with
    | array items =>
      refine array items fun item hitem => ih item ?_
      have := List.sizeOf_lt_of_mem hitem
      simp only [Value.array.sizeOf_spec] at h
      omega
    | document fields =>
      refine document fields fun entry hentry => ih entry.2 ?_
      have := inside hentry
      simp only [Value.document.sizeOf_spec] at h
      omega
    | scopedCode text scope =>
      refine scopedCode text scope fun entry hentry => ih entry.2 ?_
      have := inside hentry
      simp only [Value.scopedCode.sizeOf_spec] at h
      omega
    | null => exact null
    | undefined => exact undefined
    | boolean b => exact boolean b
    | int32 n => exact int32 n
    | int64 n => exact int64 n
    | double x => exact double x
    | string text => exact string text
    | atom a => exact atom a

/-- What a well-formed document holds is well formed. -/
theorem Value.WellFormed.of_get? {fields : Document} {name : String} {value : Value}
    (h : (Value.document fields).WellFormed) (hget : fields.get? name = some value) :
    value.WellFormed :=
  Value.fieldsWellFormed_iff.1 h.2 _ (Fields.mem_of_get?_eq_some hget)

/-! ## Fields and their counterparts -/

namespace Fields

variable {α : Type} {fields other : Fields α}

/-- Each entry of some fields has one of the same name in others, to which it is related. -/
def Matched (related : α → α → Prop) (fields other : Fields α) : Prop :=
  ∀ entry ∈ fields, ∃ value, other.get? entry.1 = some value ∧ related entry.2 value

theorem matched_cons {related : α → α → Prop} {entry : String × α} :
    Matched related (entry :: fields) other ↔
      (∃ value, other.get? entry.1 = some value ∧ related entry.2 value) ∧
        Matched related fields other :=
  List.forall_mem_cons

/-- Where nothing is named twice and nothing is left over, both sides have the same names. -/
theorem Matched.perm_names {related : α → α → Prop} (hfields : fields.names.Nodup)
    (hlength : fields.length = other.length) (h : Matched related fields other) :
    fields.names.Perm other.names := by
  have hsub : fields.names ⊆ other.names := by
    intro name hname
    obtain ⟨first, hfirst, rfl⟩ := List.mem_map.1 hname
    obtain ⟨value, hvalue, -⟩ := h first hfirst
    exact mem_names_of_mem (mem_of_get?_eq_some hvalue)
  apply (List.subperm_of_subset hfields hsub).perm_of_length_le
  simp only [names, List.length_map]
  omega

/-- Then entries can be matched from either side. -/
theorem Matched.symm {related : α → α → Prop} (hfields : fields.names.Nodup)
    (hother : other.names.Nodup) (hlength : fields.length = other.length)
    (hrelated : ∀ entry ∈ fields, ∀ counterpart ∈ other,
      related entry.2 counterpart.2 → related counterpart.2 entry.2)
    (h : Matched related fields other) : Matched related other fields := by
  intro entry hentry
  have hperm := h.perm_names hfields hlength
  have hname : entry.1 ∈ fields.names := hperm.mem_iff.2 (List.mem_map_of_mem hentry)
  obtain ⟨counterpart, hmem, hsame⟩ := List.mem_map.1 hname
  have hget : fields.get? entry.1 = some counterpart.2 :=
    (mem_iff_get?_eq_some hfields).1 (hsame ▸ hmem)
  obtain ⟨value, hvalue, hrel⟩ := h counterpart hmem
  have hback : other.get? entry.1 = some entry.2 := (mem_iff_get?_eq_some hother).1 hentry
  rw [hsame, hback] at hvalue
  obtain rfl := Option.some.inj hvalue
  exact ⟨counterpart.2, hget, hrelated counterpart hmem entry hentry hrel⟩

/-- Where nothing is named twice, matching is comparing name by name: what is read under a name on one
side is related to what is read under it on the other, and nothing is read on one side alone. -/
theorem matched_iff_rel {related : α → α → Prop} (hfields : fields.names.Nodup)
    (hother : other.names.Nodup) :
    fields.length = other.length ∧ Matched related fields other ↔
      ∀ name, Option.Rel related (fields.get? name) (other.get? name) := by
  constructor
  · intro h name
    have hperm := h.2.perm_names hfields h.1
    cases hget : fields.get? name with
    | none =>
      rw [get?_eq_none_iff, hperm.mem_iff, ← get?_eq_none_iff] at hget
      rw [hget]
      exact .none
    | some value =>
      obtain ⟨counterpart, hcounterpart, hrel⟩ := h.2 _ (mem_of_get?_eq_some hget)
      rw [hcounterpart]
      exact .some hrel
  · intro h
    -- the names are those under which something is read, so they are the same on both sides
    have hnames : fields.names.Perm other.names := by
      rw [List.perm_ext_iff_of_nodup hfields hother]
      intro name
      have hrel := h name
      rw [← not_iff_not, ← get?_eq_none_iff, ← get?_eq_none_iff]
      cases hget : fields.get? name <;> cases hget' : other.get? name <;> simp_all
    refine ⟨?_, fun entry hentry => ?_⟩
    · have hlength := hnames.length_eq
      rwa [names, names, List.length_map, List.length_map] at hlength
    · have hrel := h entry.1
      rw [(mem_iff_get?_eq_some hfields).1 hentry] at hrel
      cases hget : other.get? entry.1 with
      | none =>
        rw [hget] at hrel
        cases hrel
      | some value =>
        rw [hget] at hrel
        cases hrel with
        | some hrel => exact ⟨value, rfl, hrel⟩

theorem Matched.imp {related weaker : α → α → Prop}
    (himp : ∀ entry ∈ fields, ∀ {y}, related entry.2 y → weaker entry.2 y)
    (h : Matched related fields other) : Matched weaker fields other := by
  intro entry hentry
  obtain ⟨y, hy, hrel⟩ := h entry hentry
  exact ⟨y, hy, himp entry hentry hrel⟩

/-- Two matchings in a row. -/
theorem Matched.trans {first next both : α → α → Prop} {third : Fields α}
    (hfirst : Matched first fields other) (hnext : Matched next other third)
    (hboth : ∀ entry ∈ fields, ∀ {y z}, first entry.2 y → next y z → both entry.2 z) :
    Matched both fields third := by
  intro entry hentry
  obtain ⟨y, hy, hxy⟩ := hfirst entry hentry
  obtain ⟨z, hz, hyz⟩ := hnext _ (mem_of_get?_eq_some hy)
  exact ⟨z, hz, hboth entry hentry hxy hyz⟩

/-- Where nothing is named twice, entries that are related to themselves are matched by themselves. -/
theorem matched_self {related : α → α → Prop} (hfields : fields.names.Nodup)
    (hrelated : ∀ entry ∈ fields, related entry.2 entry.2) : Matched related fields fields :=
  fun entry hentry => ⟨entry.2, (mem_iff_get?_eq_some hfields).1 hentry, hrelated entry hentry⟩

end Fields

section

variable {α : Type} {related first next both : α → α → Prop} {xs ys zs : List α}

theorem forall₂_symm (hrelated : ∀ x ∈ xs, ∀ y ∈ ys, related x y → related y x)
    (h : List.Forall₂ related xs ys) : List.Forall₂ related ys xs := by
  induction h with
  | nil => exact .nil
  | cons hxy hrest ih =>
    refine .cons (hrelated _ List.mem_cons_self _ List.mem_cons_self hxy) (ih ?_)
    intro x hx y hy
    exact hrelated x (List.mem_cons_of_mem _ hx) y (List.mem_cons_of_mem _ hy)

theorem forall₂_trans (hxy : List.Forall₂ first xs ys) (hyz : List.Forall₂ next ys zs)
    (hboth : ∀ x ∈ xs, ∀ {y z}, first x y → next y z → both x z) :
    List.Forall₂ both xs zs := by
  induction hxy generalizing zs with
  | nil =>
    cases hyz
    exact .nil
  | cons hfirst hrest ih =>
    cases hyz with
    | cons hnext htail =>
      refine .cons (hboth _ List.mem_cons_self hfirst hnext) (ih htail ?_)
      intro x hx
      exact hboth x (List.mem_cons_of_mem _ hx)

theorem forall₂_imp {weaker : α → α → Prop} (himp : ∀ x ∈ xs, ∀ {y}, related x y → weaker x y)
    (h : List.Forall₂ related xs ys) : List.Forall₂ weaker xs ys := by
  induction h with
  | nil => exact .nil
  | cons hxy hrest ih =>
    refine .cons (himp _ List.mem_cons_self hxy) (ih ?_)
    intro x hx
    exact himp x (List.mem_cons_of_mem _ hx)

theorem exists_of_mem_forall₂ (h : List.Forall₂ related xs ys) {x : α} (hx : x ∈ xs) :
    ∃ y, related x y := by
  induction h with
  | nil => nomatch hx
  | cons hfirst hrest ih =>
    rcases List.mem_cons.1 hx with rfl | hmem
    · exact ⟨_, hfirst⟩
    · exact ih hmem

end

/-! ## Numbers -/

theorem Binary64.equal_comm (x y : Binary64) : x.equal y = y.equal x := by
  simp only [Binary64.equal, Bool.and_comm, Bool.beq_comm]

theorem Number.equal_comm (m n : Number) : m.equal n = n.equal m := by
  cases m with
  | int m =>
    cases n with
    | int n => exact Bool.beq_comm
    | float y => rfl
  | float x =>
    cases n with
    | int n => rfl
    | float y => exact Binary64.equal_comm x y

namespace Value

/-- Documents without repeated names can be matched from either side when their values can. -/
theorem matched_symm {related : Value → Value → Prop} {fields other : Document}
    (hfields : (document fields).WellFormed) (hother : (document other).WellFormed)
    (hlength : fields.length = other.length)
    (ih : ∀ entry ∈ fields, ∀ {b : Value}, entry.2.WellFormed → b.WellFormed →
      related entry.2 b → related b entry.2)
    (h : Fields.Matched related fields other) : Fields.Matched related other fields := by
  rw [WellFormed, fieldsWellFormed_iff] at hfields hother
  apply h.symm hfields.1 hother.1 hlength
  intro entry hentry counterpart hcounterpart
  exact ih entry hentry (hfields.2 entry hentry) (hother.2 counterpart hcounterpart)

/-! ## Strict equality -/

theorem equalItems_iff {xs ys : List Value} :
    equalItems xs ys = true ↔ List.Forall₂ (fun x y => x.equal y = true) xs ys := by
  induction xs generalizing ys with
  | nil => cases ys <;> simp [equalItems]
  | cons x rest ih =>
    cases ys with
    | nil => simp [equalItems]
    | cons y others => rw [equalItems, Bool.and_eq_true, ih, List.forall₂_cons]

theorem equalFields_iff {fields other : Document} :
    equalFields fields other = true ↔
      Fields.Matched (fun x y => x.equal y = true) fields other := by
  induction fields with
  | nil => simp [equalFields, Fields.Matched]
  | cons entry rest ih =>
    obtain ⟨name, x⟩ := entry
    rw [equalFields, Bool.and_eq_true, ih, Fields.matched_cons]
    cases Fields.get? other name <;> simp

theorem equal_symm {a b : Value} (ha : a.WellFormed) (hb : b.WellFormed)
    (h : a.equal b = true) : b.equal a = true := by
  induction a using Value.induction generalizing b with
  | array items ih =>
    cases b with
    | array others =>
      rw [WellFormed, allWellFormed_iff] at ha hb
      rw [equal, equalItems_iff] at h ⊢
      exact forall₂_symm (fun x hx y hy => ih x hx (ha x hx) (hb y hy)) h
    | _ => simp [equal] at h
  | document fields ih =>
    cases b with
    | document other =>
      rw [equal, Bool.and_eq_true, beq_iff_eq, equalFields_iff] at h ⊢
      exact ⟨h.1.symm, matched_symm ha hb h.1 ih h.2⟩
    | _ => simp [equal] at h
  | scopedCode text scope ih =>
    cases b with
    | scopedCode text' other =>
      simp only [equal, Bool.and_eq_true, beq_iff_eq, equalFields_iff] at h ⊢
      exact ⟨h.1.symm, h.2.1.symm, matched_symm ha hb h.2.1 ih h.2.2⟩
    | _ => simp [equal] at h
  | double x =>
    cases b with
    | double y => exact (Binary64.equal_comm x y).symm.trans h
    | _ => simp [equal] at h
  | null | undefined | boolean | int32 | int64 | string | atom =>
    cases b <;> simp_all [equal]

theorem equal_comm {a b : Value} (ha : a.WellFormed) (hb : b.WellFormed) :
    a.equal b = b.equal a := by
  rw [Bool.eq_iff_iff]
  exact ⟨equal_symm ha hb, equal_symm hb ha⟩

/-! ## Loose equality -/

theorem itemsAgree_iff {xs ys : List Value} :
    itemsAgree xs ys = true ↔ List.Forall₂ (fun x y => x.agrees y = true) xs ys := by
  induction xs generalizing ys with
  | nil => cases ys <;> simp [itemsAgree]
  | cons x rest ih =>
    cases ys with
    | nil => simp [itemsAgree]
    | cons y others => rw [itemsAgree, Bool.and_eq_true, ih, List.forall₂_cons]

theorem fieldsAgree_iff {fields other : Document} :
    fieldsAgree fields other = true ↔
      Fields.Matched (fun x y => x.agrees y = true) fields other := by
  induction fields with
  | nil => simp [fieldsAgree, Fields.Matched]
  | cons entry rest ih =>
    obtain ⟨name, x⟩ := entry
    rw [fieldsAgree, Bool.and_eq_true, ih, Fields.matched_cons]
    cases Fields.get? other name <;> simp

/-- Loose equality by numbers and texts does not depend on the side. -/
theorem scalarsAgree_comm {a b : Value} (ha : a.WellFormed) (hb : b.WellFormed) :
    scalarsAgree a b = scalarsAgree b a := by
  unfold scalarsAgree
  cases Number.ofValue? a with
  | some m =>
    cases Number.ofValue? b with
    | some n => exact m.equal_comm n
    | none => rfl
  | none =>
    cases Number.ofValue? b with
    | some n => rfl
    | none =>
      show (a.isNull && b.isNull || a.equal b) = (b.isNull && a.isNull || b.equal a)
      rw [equal_comm ha hb, Bool.and_comm]

theorem agrees_symm {a b : Value} (ha : a.WellFormed) (hb : b.WellFormed)
    (h : a.agrees b = true) : b.agrees a = true := by
  induction a using Value.induction generalizing b with
  | array items ih =>
    cases b with
    | array others =>
      rw [WellFormed, allWellFormed_iff] at ha hb
      rw [agrees, itemsAgree_iff] at h ⊢
      exact forall₂_symm (fun x hx y hy => ih x hx (ha x hx) (hb y hy)) h
    | _ => exact (scalarsAgree_comm hb ha).trans h
  | document fields ih =>
    cases b with
    | document other =>
      rw [agrees, Bool.and_eq_true, beq_iff_eq, fieldsAgree_iff] at h ⊢
      exact ⟨h.1.symm, matched_symm ha hb h.1 ih h.2⟩
    | _ => exact (scalarsAgree_comm hb ha).trans h
  | scopedCode | null | undefined | boolean | int32 | int64 | double | string | atom =>
    cases b <;> exact (scalarsAgree_comm hb ha).trans h

/-- Loose equality is symmetric. -/
theorem agrees_comm {a b : Value} (ha : a.WellFormed) (hb : b.WellFormed) :
    a.agrees b = b.agrees a := by
  rw [Bool.eq_iff_iff]
  exact ⟨agrees_symm ha hb, agrees_symm hb ha⟩

end Value

end DocumentStore
