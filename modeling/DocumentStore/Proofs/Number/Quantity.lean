import DocumentStore.Proofs.Binary64.Encoding
import DocumentStore.Proofs.Number.Reading
import DocumentStore.Proofs.Value.Equality

/-!
# Numbers as exact quantities

A number is an integer or a double, and either of them holds an exact quantity, unless it is a NaN.
Equality of numbers, which is decided by four rules for the four pairs of sorts, is the equality of
these quantities.

* `asInt?_eq_some_iff`: which integer a number holds;
* `equal_iff`: which numbers are equal, from which `equal_trans` and `equal_self_iff` follow;
* `exact_equality` puts this together.
-/

namespace DocumentStore.Number

/-- The exact quantity that a number holds; a NaN holds none. -/
def quantity? : Number → Option Quantity
  | int n => some (.rational n.toInt)
  | float x => x.quantity?

theorem asInt?_eq_some_iff {m : Number} {n : Int64} :
    m.asInt? = some n ↔ m.quantity? = some (.rational n.toInt) := by
  cases m with
  | int m =>
    rw [asInt?, quantity?, Option.some.injEq, Option.some.injEq, Quantity.rational.injEq,
      Int.cast_inj, Int64.toInt_inj]
  | float x => rw [asInt?_float_eq_some_iff, quantity?, Binary64.quantity?_eq_rational_iff]

/-- A number is equal to an integer when it holds just this integer. -/
theorem equal_int_iff {m : Number} {n : Int64} :
    m.equal (int n) = true ↔ m.quantity? = some (.rational n.toInt) := by
  rw [equal_int, beq_iff_eq, asInt?_eq_some_iff]

/-- Two numbers are equal when they hold the same quantity. -/
theorem equal_iff {m n : Number} : m.equal n = true ↔
    ∃ quantity, m.quantity? = some quantity ∧ n.quantity? = some quantity := by
  cases n with
  | int n => simp [equal_int_iff, quantity?]
  | float y =>
    cases m with
    | int m => rw [equal_comm, equal_int_iff]; simp [quantity?]
    | float x => exact Binary64.equal_iff

theorem equal_trans {l m n : Number} (hlm : l.equal m = true) (hmn : m.equal n = true) :
    l.equal n = true := by
  rw [equal_iff] at hlm hmn ⊢
  obtain ⟨quantity, hl, hm⟩ := hlm
  obtain ⟨other, hm', hn⟩ := hmn
  rw [hm, Option.some.injEq] at hm'
  exact ⟨quantity, hl, hm' ▸ hn⟩

/-- Only what holds no quantity differs from itself. -/
theorem equal_self_iff {m : Number} : m.equal m = true ↔ m.quantity? ≠ none := by
  rw [equal_iff, Option.ne_none_iff_exists']
  simp

/-- A NaN is the only number that differs from itself. -/
theorem equal_self_eq_false_iff {m : Number} :
    m.equal m = false ↔ ∃ x, m = float x ∧ x.isNaN = true := by
  rw [← Bool.not_eq_true, equal_self_iff, not_not]
  cases m with
  | int m => simp [quantity?]
  | float x => simp [quantity?, Binary64.quantity?_eq_none_iff]

/-- And it is equal to nothing else, either. -/
theorem not_equal_of_isNaN {x : Binary64} {n : Number} (hx : x.isNaN = true) :
    ¬ (float x).equal n = true := by
  rw [equal_iff]
  intro h
  obtain ⟨quantity, hquantity, -⟩ := h
  rw [quantity?, Binary64.quantity?_eq_none_iff.2 hx] at hquantity
  contradiction

/-- Equality of numbers is equality of the exact quantities that they hold, whatever the sorts of the
two. So it is symmetric and transitive, and reflexive except for a NaN, which is a double whose
exponent is the greatest one and whose fraction is not zero. The integer that is read from a number
is its quantity, where that is an integer of sixty-four bits, and there is none otherwise. -/
theorem exact_equality :
    (∀ m n : Number, m.equal n = true ↔
      ∃ quantity, m.quantity? = some quantity ∧ n.quantity? = some quantity) ∧
    (∀ m n : Number, m.equal n = n.equal m) ∧
    (∀ l m n : Number, l.equal m = true → m.equal n = true → l.equal n = true) ∧
    (∀ m : Number, m.equal m = false ↔
      ∃ x : Binary64, m = float x ∧ x.exponentField = 2047 ∧ x.fractionField ≠ 0) ∧
    (∀ (m : Number) (n : Int64), m.asInt? = some n ↔ m.quantity? = some (.rational n.toInt)) := by
  refine ⟨fun m n => equal_iff, equal_comm, fun l m n => equal_trans, fun m => ?_,
    fun m n => asInt?_eq_some_iff⟩
  rw [equal_self_eq_false_iff]
  simp only [Binary64.isNaN_iff_fields]

/-- The two zeros are equal to each other by way of the integer between them. The double `2 ^ 63` comes
right behind the integers of sixty-four bits, and holds none of them. -/
theorem exact_equality_zeros :
    (float ⟨0x8000000000000000⟩).equal (int 0) = true ∧ (int 0).equal (float ⟨0⟩) = true ∧
    (float ⟨0x8000000000000000⟩).equal (float ⟨0⟩) = true ∧
    (∀ n, (float ⟨0x43E0000000000000⟩).asInt? ≠ some n) := by
  have hminus : (float ⟨0x8000000000000000⟩).equal (int 0) = true := by decide +kernel
  have hplus : (int 0).equal (float ⟨0⟩) = true := by decide +kernel
  obtain ⟨-, -, htrans, -, -⟩ := exact_equality
  refine ⟨hminus, hplus, htrans _ _ _ hminus hplus, ?_⟩
  have hnone : (float ⟨0x43E0000000000000⟩).asInt? = none := by decide +kernel
  rw [hnone]
  intro n hn
  contradiction

end DocumentStore.Number
