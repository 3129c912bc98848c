import DocumentStore.Identifier
import DocumentStore.Proofs.Number.Quantity
import Mathlib.Logic.Relation

/-!
# How far loose equality is an equivalence

Loose equality looks at numbers, texts, arrays and documents by rules of their own. It does not depend
on the side. It is transitive as long as the chain does not lead from one text over a number to another
text, and reflexive as long as there is no NaN.

* `StringFree` and `HoldsNaN` say what can be found inside a value;
* `equal_trans` and `agrees_trans`, `equal_self` and `agrees_self`, `not_equal_of_holdsNaN` and
  `not_agrees_of_holdsNaN` are the laws of the two equalities;
* `agrees_either_side` is the symmetry, and `agrees_partial_equivalence` puts the rest together.
-/

namespace DocumentStore.Value

/-! ## What is inside a value -/

/-- A value stands right inside another one, as an item of an array or in a field of a document. -/
inductive Nested : Value → Value → Prop
  | item {items : List Value} {v : Value} : v ∈ items → Nested v (array items)
  | field {fields : Document} {entry : String × Value} :
    entry ∈ fields → Nested entry.2 (document fields)

/-- A value stands right inside another one, there or among the variables of a program. -/
inductive Enclosed : Value → Value → Prop
  | nested {v w : Value} : Nested v w → Enclosed v w
  | captured {text : String} {scope : Document} {entry : String × Value} :
    entry ∈ scope → Enclosed entry.2 (scopedCode text scope)

/-- No string is reached from the value through arrays and documents. -/
def StringFree (v : Value) : Prop :=
  ∀ text, ¬ Relation.ReflTransGen Nested (string text) v

/-- There is a NaN in the value, at some depth. -/
def HoldsNaN (v : Value) : Prop :=
  ∃ x : Binary64, x.isNaN = true ∧ Relation.ReflTransGen Enclosed (double x) v

theorem HoldsNaN.enclosed {v w : Value} (hv : v.HoldsNaN) (h : Enclosed v w) : w.HoldsNaN := by
  obtain ⟨x, hx, hreach⟩ := hv
  exact ⟨x, hx, hreach.tail h⟩

theorem stringFree_iff {w : Value} :
    w.StringFree ↔ (∀ text, w ≠ string text) ∧ ∀ v, Nested v w → v.StringFree := by
  constructor
  · intro h
    refine ⟨fun text heq => ?_, fun v hv text hreach => h text (hreach.tail hv)⟩
    rw [heq] at h
    exact h text .refl
  · intro h text hreach
    rcases hreach.cases_tail with heq | ⟨v, hv, hnested⟩
    · exact h.1 text heq
    · exact h.2 v hnested text hv

theorem stringFree_array_iff {items : List Value} :
    (array items).StringFree ↔ ∀ item ∈ items, item.StringFree := by
  rw [stringFree_iff]
  constructor
  · intro h item hitem
    exact h.2 item (.item hitem)
  · intro h
    refine ⟨nofun, fun v hv => ?_⟩
    cases hv with
    | item hitem => exact h v hitem

theorem stringFree_document_iff {fields : Document} :
    (document fields).StringFree ↔ ∀ entry ∈ fields, entry.2.StringFree := by
  rw [stringFree_iff]
  constructor
  · intro h entry hentry
    exact h.2 entry.2 (.field hentry)
  · intro h
    refine ⟨nofun, fun v hv => ?_⟩
    cases hv with
    | field hentry => exact h _ hentry

/-! ## Strict equality -/

theorem equal_array_iff {items : List Value} {b : Value} : (array items).equal b = true ↔
    ∃ others, b = array others ∧ List.Forall₂ (fun x y => x.equal y = true) items others := by
  cases b <;> simp [equal, equalItems_iff]

theorem equal_document_iff {fields : Document} {b : Value} : (document fields).equal b = true ↔
    ∃ other, b = document other ∧ fields.length = other.length ∧
      Fields.Matched (fun x y => x.equal y = true) fields other := by
  cases b <;> simp [equal, equalFields_iff]

theorem equal_scopedCode_iff {text : String} {scope : Document} {b : Value} :
    (scopedCode text scope).equal b = true ↔
      ∃ other, b = scopedCode text other ∧ scope.length = other.length ∧
        Fields.Matched (fun x y => x.equal y = true) scope other := by
  cases b with
  | scopedCode text' other =>
    rw [equal, Bool.and_eq_true, Bool.and_eq_true, beq_iff_eq, beq_iff_eq, equalFields_iff]
    constructor
    · intro h
      exact ⟨other, by rw [h.1], h.2⟩
    · intro h
      obtain ⟨_, heq, h⟩ := h
      rw [scopedCode.injEq] at heq
      exact ⟨heq.1.symm, heq.2 ▸ h⟩
  | _ => simp [equal]

/-- Values that consist of one part, which is not a double. -/
def IsPlain : Value → Prop
  | null | undefined | boolean _ | int32 _ | int64 _ | string _ | atom _ => True
  | double _ | array _ | document _ | scopedCode _ _ => False

theorem equal_iff_eq {a b : Value} (ha : a.IsPlain) : a.equal b = true ↔ a = b := by
  cases a <;> cases b <;> simp_all [IsPlain, equal]

theorem equal_trans {a b c : Value} (hab : a.equal b = true) (hbc : b.equal c = true) :
    a.equal c = true := by
  induction a using Value.induction generalizing b c with
  | array items ih =>
    rw [equal_array_iff] at hab
    obtain ⟨others, rfl, hothers⟩ := hab
    rw [equal_array_iff] at hbc ⊢
    obtain ⟨thirds, rfl, hthirds⟩ := hbc
    exact ⟨thirds, rfl, forall₂_trans hothers hthirds ih⟩
  | document fields ih =>
    rw [equal_document_iff] at hab
    obtain ⟨other, rfl, hlength, hother⟩ := hab
    rw [equal_document_iff] at hbc ⊢
    obtain ⟨third, rfl, hlength', hthird⟩ := hbc
    exact ⟨third, rfl, hlength.trans hlength', hother.trans hthird ih⟩
  | scopedCode text scope ih =>
    rw [equal_scopedCode_iff] at hab
    obtain ⟨other, rfl, hlength, hother⟩ := hab
    rw [equal_scopedCode_iff] at hbc ⊢
    obtain ⟨third, rfl, hlength', hthird⟩ := hbc
    exact ⟨third, rfl, hlength.trans hlength', hother.trans hthird ih⟩
  | double x =>
    cases b with
    | double y =>
      cases c with
      | double z => exact @Number.equal_trans (.float x) (.float y) (.float z) hab hbc
      | _ => nomatch hbc
    | _ => nomatch hab
  | null | undefined | boolean | int32 | int64 | string | atom =>
    have hsame := (equal_iff_eq (by trivial)).1 hab
    rwa [← hsame] at hbc

theorem equal_self {a : Value} (ha : a.WellFormed) (hnan : ¬ a.HoldsNaN) : a.equal a = true := by
  induction a using Value.induction with
  | array items ih =>
    rw [WellFormed, allWellFormed_iff] at ha
    rw [equal_array_iff]
    refine ⟨items, rfl, List.forall₂_same.2 fun item hitem => ih item hitem (ha item hitem) ?_⟩
    intro hinside
    exact hnan (hinside.enclosed (.nested (.item hitem)))
  | document fields ih =>
    rw [WellFormed, fieldsWellFormed_iff] at ha
    rw [equal_document_iff]
    refine ⟨fields, rfl, rfl, Fields.matched_self ha.1 fun entry hentry =>
      ih entry hentry (ha.2 entry hentry) ?_⟩
    intro hinside
    exact hnan (hinside.enclosed (.nested (.field hentry)))
  | scopedCode text scope ih =>
    rw [WellFormed, fieldsWellFormed_iff] at ha
    rw [equal_scopedCode_iff]
    refine ⟨scope, rfl, rfl, Fields.matched_self ha.1 fun entry hentry =>
      ih entry hentry (ha.2 entry hentry) ?_⟩
    intro hinside
    exact hnan (hinside.enclosed (.captured hentry))
  | double x =>
    show (Number.float x).equal (.float x) = true
    rw [← Bool.not_eq_false, Number.equal_self_eq_false_iff]
    intro hself
    obtain ⟨y, hy, hisnan⟩ := hself
    exact hnan ⟨y, hisnan, by rw [Number.float.inj hy]⟩
  | null | undefined | boolean | int32 | int64 | string | atom =>
    exact (equal_iff_eq (by trivial)).2 rfl

/-- What stands inside a value has a counterpart inside every value that is equal to it. -/
theorem exists_equal_of_enclosed {v w b : Value} (hv : Enclosed v w) (h : w.equal b = true) :
    ∃ y, v.equal y = true := by
  cases hv with
  | nested hnested =>
    cases hnested with
    | item hitem =>
      rw [equal_array_iff] at h
      obtain ⟨others, -, hothers⟩ := h
      exact exists_of_mem_forall₂ hothers hitem
    | field hentry =>
      rw [equal_document_iff] at h
      obtain ⟨other, -, -, hother⟩ := h
      obtain ⟨y, -, hy⟩ := hother _ hentry
      exact ⟨y, hy⟩
  | captured hentry =>
    rw [equal_scopedCode_iff] at h
    obtain ⟨other, -, -, hother⟩ := h
    obtain ⟨y, -, hy⟩ := hother _ hentry
    exact ⟨y, hy⟩

/-- What holds a NaN is equal to nothing. -/
theorem not_equal_of_holdsNaN {a b : Value} (ha : a.HoldsNaN) : ¬ a.equal b = true := by
  obtain ⟨x, hx, hreach⟩ := ha
  intro h
  -- by the way that leads from the NaN out to the value
  induction hreach generalizing b with
  | refl =>
    cases b with
    | double y => exact Number.not_equal_of_isNaN (n := .float y) hx h
    | _ => nomatch h
  | tail _ henclosed ih =>
    obtain ⟨y, hy⟩ := exists_equal_of_enclosed henclosed h
    exact ih hy

/-! ## Loose equality, kind by kind -/

theorem agrees_array_iff {items : List Value} {b : Value} : (array items).agrees b = true ↔
    ∃ others, b = array others ∧ List.Forall₂ (fun x y => x.agrees y = true) items others := by
  cases b <;> simp [agrees, itemsAgree_iff, scalarsAgree, Number.ofValue?, writes, isNull, equal]

theorem agrees_document_iff {fields : Document} {b : Value} : (document fields).agrees b = true ↔
    ∃ other, b = document other ∧ fields.length = other.length ∧
      Fields.Matched (fun x y => x.agrees y = true) fields other := by
  cases b <;> simp [agrees, fieldsAgree_iff, scalarsAgree, Number.ofValue?, writes, isNull, equal]

/-- Null and undefined agree with each other and with nothing else. -/
theorem agrees_of_isNull {a b : Value} (ha : a.isNull = true) : a.agrees b = b.isNull := by
  cases a <;> cases b <;> simp_all [agrees, scalarsAgree, Number.ofValue?, writes, isNull, equal]

theorem writes_string_iff {text : String} {n : Number} : (string text).writes n = true ↔
    ∃ m, Number.parse text = some m ∧ m.equal n = true := by
  rw [writes]
  cases Number.parse text with
  | none => simp [Number.sameReading]
  | some m => simp [Number.sameReading]

/-- A number is read from the values of numeric kinds and from texts. -/
theorem idNumber?_eq_some_iff {a : Value} {m : Number} : idNumber? a = some m ↔
    Number.ofValue? a = some m ∨ ∃ text, a = string text ∧ Number.parse text = some m := by
  cases a <;> simp [idNumber?, Number.ofValue?]

/-- A value of a numeric kind agrees with the numbers that are equal to it and with the texts that
write such a number. -/
theorem agrees_number_iff {a b : Value} {m : Number} (ha : Number.ofValue? a = some m) :
    a.agrees b = true ↔ ∃ n, idNumber? b = some n ∧ m.equal n = true := by
  have hagrees : a.agrees b = match Number.ofValue? b with
      | some n => m.equal n
      | none => b.writes m := by
    cases a with
    | int32 | int64 | double =>
      obtain rfl := Option.some.inj ha
      cases b <;> rfl
    | _ => nomatch ha
  rw [hagrees]
  cases b with
  | string text =>
    show (string text).writes m = true ↔ _
    rw [writes_string_iff, idNumber?]
    simp only [m.equal_comm]
  | int32 | int64 | double => simp [idNumber?, Number.ofValue?]
  | _ => simp [idNumber?, Number.ofValue?, writes]

/-- A text agrees with itself and with the numbers that are equal to the one it writes. -/
theorem agrees_string_iff {text : String} {b : Value} : (string text).agrees b = true ↔
    b = string text ∨ ∃ m n, Number.parse text = some m ∧ Number.ofValue? b = some n ∧
      m.equal n = true := by
  cases b with
  | string other =>
    show (text == other) = true ↔ _
    rw [beq_iff_eq]
    constructor
    · intro h
      exact .inl (by rw [h])
    · intro h
      rcases h with h | ⟨m, n, -, hn, -⟩
      · exact (string.inj h).symm
      · nomatch hn
  | int32 n =>
    show (string text).writes (.int n.toInt64) = true ↔ _
    simp [writes_string_iff, Number.ofValue?]
  | int64 n =>
    show (string text).writes (.int n) = true ↔ _
    simp [writes_string_iff, Number.ofValue?]
  | double x =>
    show (string text).writes (.float x) = true ↔ _
    simp [writes_string_iff, Number.ofValue?]
  | _ => simp [agrees, scalarsAgree, Number.ofValue?, isNull, equal]

/-- Values that loose equality compares strictly, whatever the other value is. -/
def IsStrict : Value → Prop
  | boolean _ | scopedCode _ _ | atom _ => True
  | _ => False

theorem agrees_of_isStrict {a b : Value} (ha : a.IsStrict) : a.agrees b = a.equal b := by
  cases a <;> cases b <;>
    simp_all [IsStrict, agrees, scalarsAgree, Number.ofValue?, writes, isNull, equal]

theorem IsStrict.right {a b : Value} (ha : a.IsStrict) (h : a.equal b = true) : b.IsStrict := by
  cases a with
  | boolean | atom => exact (equal_iff_eq (by trivial)).1 h ▸ ha
  | scopedCode text scope =>
    rw [equal_scopedCode_iff] at h
    obtain ⟨other, rfl, -⟩ := h
    trivial
  | _ => nomatch ha

/-! ## Transitivity -/

/-- Loose equality passes on which number is read from a value, be it out of a text or not. -/
theorem idNumber?_of_agrees {b c : Value} {m n : Number} (hn : idNumber? b = some n)
    (hmn : m.equal n = true) (h : b.agrees c = true) :
    ∃ k, idNumber? c = some k ∧ m.equal k = true := by
  rcases idNumber?_eq_some_iff.1 hn with hnumber | ⟨text, rfl, htext⟩
  · obtain ⟨k, hk, hnk⟩ := (agrees_number_iff hnumber).1 h
    exact ⟨k, hk, Number.equal_trans hmn hnk⟩
  · rcases agrees_string_iff.1 h with rfl | ⟨n', k, hn', hk, hnk⟩
    · -- the same text once more, from which the same number is read
      exact ⟨n, hn, hmn⟩
    · obtain rfl : n = n' := Option.some.inj (htext.symm.trans hn')
      exact ⟨k, idNumber?_eq_some_iff.2 (.inl hk), Number.equal_trans hmn hnk⟩

/-- A chain of loose equalities that starts at a number can be shortened. The middle of it may well be
a text: one that writes a number is equal to the numbers of that value only. -/
theorem agrees_trans_number {a b c : Value} {m : Number} (ha : Number.ofValue? a = some m)
    (hab : a.agrees b = true) (hbc : b.agrees c = true) : a.agrees c = true := by
  rw [agrees_number_iff ha] at hab ⊢
  obtain ⟨n, hn, hmn⟩ := hab
  exact idNumber?_of_agrees hn hmn hbc

/-- So can one that starts at any value in which no text is found. -/
theorem agrees_trans {a b c : Value} (ha : a.StringFree) (hab : a.agrees b = true)
    (hbc : b.agrees c = true) : a.agrees c = true := by
  induction a using Value.induction generalizing b c with
  | array items ih =>
    rw [stringFree_array_iff] at ha
    rw [agrees_array_iff] at hab
    obtain ⟨others, rfl, hothers⟩ := hab
    rw [agrees_array_iff] at hbc ⊢
    obtain ⟨thirds, rfl, hthirds⟩ := hbc
    exact ⟨thirds, rfl, forall₂_trans hothers hthirds fun item hitem =>
      ih item hitem (ha item hitem)⟩
  | document fields ih =>
    rw [stringFree_document_iff] at ha
    rw [agrees_document_iff] at hab
    obtain ⟨other, rfl, hlength, hother⟩ := hab
    rw [agrees_document_iff] at hbc ⊢
    obtain ⟨third, rfl, hlength', hthird⟩ := hbc
    exact ⟨third, rfl, hlength.trans hlength', hother.trans hthird fun entry hentry =>
      ih entry hentry (ha entry hentry)⟩
  -- a chain from a text may break: it passes on which number is read, but not how it is written
  | string text => exact absurd rfl ((stringFree_iff.1 ha).1 text)
  | int32 | int64 | double => exact agrees_trans_number rfl hab hbc
  | null | undefined =>
    rw [agrees_of_isNull rfl] at hab ⊢
    rwa [agrees_of_isNull hab] at hbc
  | scopedCode | boolean | atom =>
    -- both links are strict, since strict equality keeps the kind
    rw [agrees_of_isStrict (by trivial)] at hab ⊢
    rw [agrees_of_isStrict (IsStrict.right (by trivial) hab)] at hbc
    exact equal_trans hab hbc

/-- A text is loosely equal to the numbers of one value only. -/
theorem equal_of_agrees_string {text : String} {a b : Value} {m n : Number}
    (hm : Number.ofValue? a = some m) (hn : Number.ofValue? b = some n)
    (ha : (string text).agrees a = true) (hb : (string text).agrees b = true) :
    m.equal n = true := by
  have hparse {v : Value} {k : Number} (hk : Number.ofValue? v = some k)
      (hv : (string text).agrees v = true) :
      ∃ l, Number.parse text = some l ∧ l.equal k = true := by
    rcases agrees_string_iff.1 hv with rfl | ⟨l, k', hl, hk', hlk⟩
    · nomatch hk
    · obtain rfl : k = k' := Option.some.inj (hk.symm.trans hk')
      exact ⟨l, hl, hlk⟩
  obtain ⟨l, hl, hlm⟩ := hparse hm ha
  obtain ⟨l', hl', hln⟩ := hparse hn hb
  obtain rfl : l = l' := Option.some.inj (hl.symm.trans hl')
  rw [Number.equal_comm] at hlm
  exact Number.equal_trans hlm hln

/-! ## Reflexivity -/

/-- What is strictly equal is loosely equal. -/
theorem agrees_of_equal {a b : Value} (h : a.equal b = true) : a.agrees b = true := by
  induction a using Value.induction generalizing b with
  | array items ih =>
    rw [equal_array_iff] at h
    obtain ⟨others, rfl, hothers⟩ := h
    rw [agrees_array_iff]
    exact ⟨others, rfl, forall₂_imp ih hothers⟩
  | document fields ih =>
    rw [equal_document_iff] at h
    obtain ⟨other, rfl, hlength, hother⟩ := h
    rw [agrees_document_iff]
    exact ⟨other, rfl, hlength, hother.imp ih⟩
  | scopedCode | boolean | atom => rwa [agrees_of_isStrict (by trivial)]
  | double x =>
    cases b with
    | double y => exact h
    | _ => nomatch h
  | null | undefined | int32 | int64 | string =>
    obtain rfl := (equal_iff_eq (by trivial)).1 h
    simp [agrees, scalarsAgree, Number.ofValue?, Number.equal, isNull, equal]

theorem agrees_self {a : Value} (ha : a.WellFormed) (hnan : ¬ a.HoldsNaN) : a.agrees a = true :=
  agrees_of_equal (equal_self ha hnan)

/-- What stands inside a value has a counterpart inside every value that is loosely equal to it. -/
theorem exists_agrees_of_nested {v w b : Value} (hv : Nested v w) (h : w.agrees b = true) :
    ∃ y, v.agrees y = true := by
  cases hv with
  | item hitem =>
    rw [agrees_array_iff] at h
    obtain ⟨others, -, hothers⟩ := h
    exact exists_of_mem_forall₂ hothers hitem
  | field hentry =>
    rw [agrees_document_iff] at h
    obtain ⟨other, -, -, hother⟩ := h
    obtain ⟨y, -, hy⟩ := hother _ hentry
    exact ⟨y, hy⟩

/-- What holds a NaN is not loosely equal to anything, either. -/
theorem not_agrees_of_holdsNaN {a b : Value} (ha : a.HoldsNaN) : ¬ a.agrees b = true := by
  obtain ⟨x, hx, hreach⟩ := ha
  intro h
  induction hreach generalizing b with
  | refl =>
    obtain ⟨n, -, hn⟩ := (agrees_number_iff rfl).1 h
    exact Number.not_equal_of_isNaN hx hn
  | tail hreach henclosed ih =>
    cases henclosed with
    | nested hnested =>
      obtain ⟨y, hy⟩ := exists_agrees_of_nested hnested h
      exact ih hy
    | captured hentry =>
      -- variables are compared strictly, by which a NaN shows as well
      rw [agrees_of_isStrict (by trivial)] at h
      exact not_equal_of_holdsNaN ⟨x, hx, hreach.tail (.captured hentry)⟩ h

/-! ## The relation as a whole -/

/-- Loose equality does not depend on the side. For two documents this can be seen in their fields:
they are loosely equal when under each name either both have a field and these two are loosely equal,
or neither has one. -/
theorem agrees_either_side :
    (∀ a b : Value, a.WellFormed → b.WellFormed → (a.agrees b = true ↔ b.agrees a = true)) ∧
    (∀ fields other : Document, (document fields).WellFormed → (document other).WellFormed →
      ((document fields).agrees (document other) = true ↔
        ∀ name, Option.Rel (fun x y => x.agrees y = true) (fields.get? name) (other.get? name))) := by
  refine ⟨fun a b ha hb => ⟨agrees_symm ha hb, agrees_symm hb ha⟩, ?_⟩
  intro fields other hfields hother
  rw [WellFormed] at hfields hother
  rw [agrees, Bool.and_eq_true, beq_iff_eq, fieldsAgree_iff]
  exact Fields.matched_iff_rel hfields.1 hother.1

/-- A text stands for a number on either side, deep inside and in another order of the fields. -/
theorem agrees_either_side_nested :
    (document [("n", array [string " 1e2 ", int32 7]), ("z", null)]).agrees
      (document [("z", undefined), ("n", array [int64 100, string "7.0"])]) = true ∧
    (document [("z", undefined), ("n", array [int64 100, string "7.0"])]).agrees
      (document [("n", array [string " 1e2 ", int32 7]), ("z", null)]) = true := by
  have hleft : (document [("n", array [string " 1e2 ", int32 7]), ("z", null)]).agrees
      (document [("z", undefined), ("n", array [int64 100, string "7.0"])]) = true := by
    decide +kernel
  refine ⟨hleft, (agrees_either_side.1 _ _ ?_ ?_).1 hleft⟩
  · simp [WellFormed, FieldsWellFormed, AllWellFormed]
  · simp [WellFormed, FieldsWellFormed, AllWellFormed]

/-- Loose equality is transitive where the chain starts or ends at a value in which no text is found:
only two texts can be equal to one number and differ from each other. So a text is not equal to two
numbers that differ. Among the values without a text it is an equivalence, once those are left out
that hold a NaN, and these are not equal to anything, on either side. -/
theorem agrees_partial_equivalence :
    (∀ a b c : Value, a.WellFormed → b.WellFormed → c.WellFormed → a.StringFree ∨ c.StringFree →
      a.agrees b = true → b.agrees c = true → a.agrees c = true) ∧
    (∀ (text : String) (a b : Value) (m n : Number), Number.ofValue? a = some m →
      Number.ofValue? b = some n → (string text).agrees a = true → (string text).agrees b = true →
      m.equal n = true) ∧
    Equivalence (fun a b : {v : Value // v.WellFormed ∧ v.StringFree ∧ ¬ v.HoldsNaN} =>
      a.1.agrees b.1 = true) ∧
    (∀ a b : Value, a.WellFormed → b.WellFormed → a.HoldsNaN →
      a.agrees b = false ∧ b.agrees a = false) := by
  refine ⟨?_, ?_, ⟨?_, ?_, ?_⟩, ?_⟩
  · intro a b c ha hb hc hfree hab hbc
    rcases hfree with hfree | hfree
    · exact agrees_trans hfree hab hbc
    · -- the same chain, walked from its other end
      exact agrees_symm hc ha (agrees_trans hfree (agrees_symm hb hc hbc) (agrees_symm ha hb hab))
  · intro text a b m n hm hn ha hb
    exact equal_of_agrees_string hm hn ha hb
  · intro a
    exact agrees_self a.2.1 a.2.2.2
  · intro a b hab
    exact agrees_symm a.2.1 b.2.1 hab
  · intro a b c hab hbc
    exact agrees_trans a.2.2.1 hab hbc
  · intro a b ha hb hnan
    rw [← Bool.not_eq_true, ← Bool.not_eq_true]
    exact ⟨not_agrees_of_holdsNaN hnan, fun h => not_agrees_of_holdsNaN hnan (agrees_symm hb ha h)⟩

/-- Numbers of three kinds around a text, inside an array and a document, where null is undefined as
well; and an array with a NaN, which differs from itself. -/
theorem agrees_partial_equivalence_array :
    (array [int32 1, document [("x", null)]]).agrees
      (array [double ⟨0x3FF0000000000000⟩, document [("x", undefined)]]) = true ∧
    (Number.int 100).equal (.float ⟨0x4059000000000000⟩) = true ∧
    (array [double ⟨0x7FF8000000000000⟩]).agrees (array [double ⟨0x7FF8000000000000⟩]) = false := by
  obtain ⟨htrans, hnumbers, -, hnan⟩ := agrees_partial_equivalence
  have hfree : (array [int32 1, document [("x", null)]]).StringFree := by
    have hone : (int32 1).StringFree := stringFree_iff.2 ⟨nofun, nofun⟩
    have hnull : null.StringFree := stringFree_iff.2 ⟨nofun, nofun⟩
    simp [stringFree_array_iff, stringFree_document_iff, hone, hnull]
  have hholds : (array [double ⟨0x7FF8000000000000⟩]).HoldsNaN :=
    ⟨_, by decide +kernel, .single (.nested (.item List.mem_cons_self))⟩
  refine ⟨htrans _ (array [string "1.0", document [("x", undefined)]]) _ ?_ ?_ ?_ (.inl hfree)
    (by decide +kernel) (by decide +kernel),
    hnumbers "1e2" (int32 100) (double ⟨0x4059000000000000⟩) _ _ rfl rfl (by decide +kernel)
      (by decide +kernel), (hnan _ _ ?_ ?_ hholds).1⟩
  all_goals simp [WellFormed, FieldsWellFormed, AllWellFormed]

/-- Two texts that write the same number may differ. -/
example : (string "1").agrees (int32 1) = true ∧ (int32 1).agrees (string "1.0") = true ∧
    (string "1").agrees (string "1.0") = false := by
  decide +kernel

end DocumentStore.Value
