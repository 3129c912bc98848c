import DocumentStore.Proofs.Binary64.Grid

/-!
# What the bits of a double encode

By the standard a double consists of three fields. `quantity?` reads them as the exact quantity that
they encode, without regard to the grid on which doubles are compared and rounded, and the two views
are the same.

* `quantity?_eq_rational_iff`, `quantity?_eq_infinity_iff` and `quantity?_eq_none_iff`: finite numbers
  encode their `value`, the place of infinity encodes an infinity, and the places behind it nothing;
* `value_eq_iff`: only zero has two encodings;
* `equal_iff`: two doubles are equal when they encode the same quantity.
-/

namespace DocumentStore

/-- An exact quantity. -/
inductive Quantity where
  | rational (q : ℚ)
  | infinity (negative : Bool)

namespace Binary64

/-! ## The fields -/

/-- The eleven bits behind the sign, which hold the exponent. -/
def exponentField (x : Binary64) : Nat := x.bits.toNat / 2 ^ 52 % 2 ^ 11

/-- The last fifty-two bits, which hold the fraction. -/
def fractionField (x : Binary64) : Nat := x.bits.toNat % 2 ^ 52

/-- The magnitude of a finite number. The least exponent stands for the same spacing as the next one,
but without the hidden bit. -/
def magnitude (x : Binary64) : ℚ :=
  if x.exponentField = 0 then x.fractionField * 2 ^ (-1074 : Int)
  else (2 ^ 52 + x.fractionField) * 2 ^ ((x.exponentField : Int) - 1075)

/-- The quantity that the bits encode. The greatest exponent is that of the infinities, and with any
fraction but zero it encodes none. -/
def quantity? (x : Binary64) : Option Quantity :=
  if x.exponentField = 2047 then
    if x.fractionField = 0 then some (.infinity x.negative) else none
  else some (.rational (if x.negative then -x.magnitude else x.magnitude))

theorem place_eq (x : Binary64) : x.place = x.exponentField * binade + x.fractionField := by
  unfold place exponentField fractionField signBit binade
  omega

theorem exponentField_le (x : Binary64) : x.exponentField ≤ 2047 := by
  unfold exponentField
  omega

theorem fractionField_lt (x : Binary64) : x.fractionField < binade := by
  unfold fractionField binade
  omega

theorem isFinite_iff_fields (x : Binary64) : x.isFinite = true ↔ x.exponentField ≠ 2047 := by
  have hexponent := x.exponentField_le
  have hfraction := x.fractionField_lt
  rw [isFinite_iff, place_eq]
  unfold infinityPlace binade at *
  omega

theorem isNaN_iff_fields (x : Binary64) :
    x.isNaN = true ↔ x.exponentField = 2047 ∧ x.fractionField ≠ 0 := by
  have hexponent := x.exponentField_le
  have hfraction := x.fractionField_lt
  rw [isNaN, decide_eq_true_eq, place_eq]
  unfold infinityPlace binade at *
  omega

/-- The place on the grid and the fields give the same magnitude. -/
theorem units_div_eq_magnitude (x : Binary64) : (x.units : ℚ) / unitsPerOne = x.magnitude := by
  have hfraction := x.fractionField_lt
  have hexponent : x.place / binade = x.exponentField := by
    rw [place_eq, Nat.add_comm, Nat.add_mul_div_right _ _ binade_pos, Nat.div_eq_of_lt hfraction,
      Nat.zero_add]
  have hrest : x.place % binade = x.fractionField := by
    rw [place_eq, Nat.add_comm, Nat.add_mul_mod_self_right, Nat.mod_eq_of_lt hfraction]
  have hone : (unitsPerOne : ℚ) = 2 ^ (1074 : Int) := by
    rw [unitsPerOne_eq, Nat.cast_pow, Nat.cast_two]
    rfl
  rw [div_eq_iff unitsPerOne_cast_pos.ne', hone, units, gridUnits, hexponent, hrest, magnitude]
  by_cases hzero : x.exponentField = 0
  · rw [if_pos hzero, if_pos hzero, place_eq, hzero, Nat.zero_mul, Nat.zero_add, mul_assoc,
      ← zpow_add₀ two_ne_zero, neg_add_cancel, zpow_zero, mul_one]
  · have hpower : (x.exponentField : Int) - 1075 + 1074 = (x.exponentField - 1 : Nat) := by omega
    rw [if_neg hzero, if_neg hzero, mul_assoc, ← zpow_add₀ two_ne_zero, hpower, zpow_natCast,
      Nat.shiftLeft_eq, binade_eq]
    push_cast
    rfl

/-! ## Quantities on the grid -/

theorem value_eq_magnitude (x : Binary64) :
    x.value = if x.negative then -x.magnitude else x.magnitude := by
  rw [value, units_div_eq_magnitude]

theorem quantity?_of_isFinite {x : Binary64} (h : x.isFinite = true) :
    x.quantity? = some (.rational x.value) := by
  rw [quantity?, if_neg ((isFinite_iff_fields x).1 h), value_eq_magnitude]

theorem quantity?_of_not_isFinite {x : Binary64} (h : ¬ x.isFinite = true) :
    x.quantity? = if x.isNaN then none else some (.infinity x.negative) := by
  have hexponent : x.exponentField = 2047 := by
    rw [isFinite_iff_fields] at h
    omega
  have hnan := x.isNaN_iff_fields
  rw [quantity?, if_pos hexponent]
  by_cases hzero : x.fractionField = 0
  · rw [if_pos hzero, if_neg (fun h => (hnan.1 h).2 hzero)]
  · rw [if_neg hzero, if_pos (hnan.2 ⟨hexponent, hzero⟩)]

theorem isNaN_eq_false_of_isFinite {x : Binary64} (h : x.isFinite = true) : x.isNaN = false :=
  (isNaN_eq_false_iff x).2 ((isFinite_iff x).1 h).le

theorem quantity?_eq_none_iff {x : Binary64} : x.quantity? = none ↔ x.isNaN = true := by
  by_cases h : x.isFinite = true
  · simp [quantity?_of_isFinite h, isNaN_eq_false_of_isFinite h]
  · simp [quantity?_of_not_isFinite h]

theorem quantity?_eq_rational_iff {x : Binary64} {q : ℚ} :
    x.quantity? = some (.rational q) ↔ x.isFinite = true ∧ x.value = q := by
  by_cases h : x.isFinite = true
  · simp [quantity?_of_isFinite h, h]
  · simp [quantity?_of_not_isFinite h, h]

theorem quantity?_eq_infinity_iff {x : Binary64} {negative : Bool} :
    x.quantity? = some (.infinity negative) ↔ x.place = infinityPlace ∧ x.negative = negative := by
  by_cases h : x.isFinite = true
  · have hplace := (isFinite_iff x).1 h
    simp [quantity?_of_isFinite h, hplace.ne]
  · rw [quantity?_of_not_isFinite h]
    rw [isFinite_iff, not_lt] at h
    by_cases hnan : x.isNaN = true
    · have hplace : ¬ x.place = infinityPlace := by
        rw [isNaN, decide_eq_true_eq] at hnan
        omega
      simp [hnan, hplace]
    · rw [Bool.not_eq_true] at hnan
      simp [hnan, le_antisymm ((isNaN_eq_false_iff x).1 hnan) h]

/-! ## Equality -/

theorem bits_eq_iff {x y : Binary64} :
    x.bits = y.bits ↔ x.negative = y.negative ∧ x.place = y.place := by
  have hx := x.bits.toNat_lt
  have hy := y.bits.toNat_lt
  rw [← UInt64.toNat_inj, Bool.eq_iff_iff]
  unfold negative place signBit
  rw [decide_eq_true_eq, decide_eq_true_eq]
  omega

/-- Only zero has two encodings. -/
theorem value_eq_iff {x y : Binary64} : x.value = y.value ↔
    x.bits = y.bits ∨ (x.place = 0 ∧ y.place = 0) := by
  have hunits : |x.value| = |y.value| ↔ x.place = y.place := by
    rw [abs_value, abs_value, div_left_inj' unitsPerOne_cast_pos.ne', Nat.cast_inj, units, units]
    exact strictMono_gridUnits.injective.eq_iff
  have hzero (z : Binary64) : z.value = 0 ↔ z.place = 0 := by
    have h := units_div_eq_iff z 0
    rw [Nat.zero_mul, Nat.cast_zero, ← abs_value, abs_eq_zero, units, ← gridUnits_zero] at h
    exact h.trans strictMono_gridUnits.injective.eq_iff
  rw [bits_eq_iff]
  constructor
  · intro h
    have hplace := hunits.1 (congrArg abs h)
    by_cases hsign : x.negative = y.negative
    · exact .inl ⟨hsign, hplace⟩
    · -- opposite signs leave only zero
      have hopposite : x.value = -y.value := by
        rw [value, value, units, units, hplace, Bool.eq_not.2 hsign]
        generalize (gridUnits y.place : ℚ) / unitsPerOne = m
        cases y.negative <;> simp
      right
      rw [← hzero, ← hzero, h, and_self]
      linarith
  · intro h
    rcases h with ⟨hsign, hplace⟩ | ⟨hx, hy⟩
    · rw [value, value, units, units, hsign, hplace]
    · rw [(hzero x).2 hx, (hzero y).2 hy]

/-- Two doubles are equal when they encode the same quantity. -/
theorem equal_iff {x y : Binary64} : x.equal y = true ↔
    ∃ quantity, x.quantity? = some quantity ∧ y.quantity? = some quantity := by
  unfold equal
  simp only [Bool.and_eq_true, Bool.or_eq_true, Bool.not_eq_true', beq_iff_eq]
  constructor
  · intro h
    obtain ⟨⟨hx, hy⟩, hsame⟩ := h
    have hplace : x.place = y.place := by
      rcases hsame with hbits | ⟨hx, hy⟩
      · exact (bits_eq_iff.1 hbits).2
      · rw [hx, hy]
    by_cases hfinite : x.isFinite = true
    · have hother : y.isFinite = true := by
        rw [isFinite_iff] at hfinite ⊢
        omega
      refine ⟨.rational x.value, quantity?_of_isFinite hfinite, ?_⟩
      rw [quantity?_of_isFinite hother, value_eq_iff.2 hsame]
    · -- neither finite nor a NaN, it is an infinity
      have hinfinite : x.place = infinityPlace := by
        rw [isFinite_iff] at hfinite
        have hle := (isNaN_eq_false_iff x).1 hx
        omega
      have hsign : x.negative = y.negative := by
        rcases hsame with hbits | ⟨hzero, -⟩
        · exact (bits_eq_iff.1 hbits).1
        · exact absurd (hinfinite.symm.trans hzero) (by decide)
      refine ⟨.infinity x.negative, ?_, ?_⟩
      · exact quantity?_eq_infinity_iff.2 ⟨hinfinite, rfl⟩
      · exact quantity?_eq_infinity_iff.2 ⟨hplace ▸ hinfinite, hsign.symm⟩
  · intro h
    obtain ⟨quantity, hx, hy⟩ := h
    have hsomething {z : Binary64} (hz : z.quantity? = some quantity) : z.isNaN = false := by
      rw [← Bool.not_eq_true, ← quantity?_eq_none_iff, hz]
      exact Option.some_ne_none _
    refine ⟨⟨hsomething hx, hsomething hy⟩, ?_⟩
    cases quantity with
    | rational q =>
      rw [quantity?_eq_rational_iff] at hx hy
      exact value_eq_iff.1 (hx.2.trans hy.2.symm)
    | infinity negative =>
      rw [quantity?_eq_infinity_iff] at hx hy
      left
      exact bits_eq_iff.2 ⟨hx.2.trans hy.2.symm, hx.1.trans hy.1.symm⟩

end Binary64

end DocumentStore
