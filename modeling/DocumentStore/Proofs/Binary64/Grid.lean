import DocumentStore.Binary64.Basic
import Mathlib.Algebra.Order.Field.Rat
import Mathlib.Data.Rat.Cast.Order
import Mathlib.Order.Monotone.Basic
import Mathlib.Tactic.FieldSimp
import Mathlib.Tactic.Linarith
import Mathlib.Tactic.Ring

/-!
# The grid of double-precision magnitudes

The places of the grid are counted through all binades, so that one more place is one more step of
the spacing there. `gridUnits_add` is the one law that computes magnitudes; the rest follows from
it.

* `gridUnits_succ` and `strictMono_gridUnits`: magnitudes grow from place to place, by `gap`;
* `binade_mul_gap_le`: outside of the first binade the gap is small against the magnitude;
* `value` is the rational number that a double stands for, and `toInt?_eq_some_iff` relates it to the
  integers.
-/

namespace DocumentStore.Binary64

/-- Powers of two with large exponents are handled by the next three lemmas, which leave the exponents
as variables, so that no power is ever computed. -/
theorem eq_two_pow {n k : Nat} (h : n = 1 <<< k) : n = 2 ^ k := h.trans (Nat.one_shiftLeft k)

theorem two_pow_mul_two_pow {a b c d : Nat} (h : a + b = c + d) :
    2 ^ a * 2 ^ b = 2 ^ c * 2 ^ d := by
  rw [← Nat.pow_add, h, Nat.pow_add]

theorem two_pow_le_two_pow {a b : Nat} (h : a ≤ b) : 2 ^ a ≤ 2 ^ b :=
  Nat.pow_le_pow_right Nat.two_pos h

theorem unitsPerOne_eq : unitsPerOne = 2 ^ 1074 := eq_two_pow rfl

theorem unitsPerOne_pos : 0 < unitsPerOne := by
  rw [unitsPerOne_eq]
  positivity

theorem binade_pos : 0 < binade := by decide

theorem binade_eq : binade = 2 ^ 52 := by decide

theorem binade_le_unitsPerOne : binade ≤ unitsPerOne := by
  rw [binade_eq, unitsPerOne_eq]
  exact two_pow_le_two_pow (by omega)

/-! ## Magnitudes -/

/-- With `k` doublings of the spacing, the places from `binade` to `2 * binade` further on are
multiples of `2 ^ k`. In front of the first doubling all places are. -/
theorem gridUnits_add {k h : Nat} (hle : h ≤ 2 * binade) (hge : k = 0 ∨ binade ≤ h) :
    gridUnits (k * binade + h) = h * 2 ^ k := by
  have hpos := binade_pos
  by_cases hsmall : h < binade
  · -- the first binade has no hidden bit
    have hk : k = 0 := by omega
    rw [hk, Nat.zero_mul, Nat.zero_add, gridUnits, if_pos (Nat.div_eq_of_lt hsmall), Nat.pow_zero,
      Nat.mul_one]
  · obtain ⟨r, rfl⟩ := Nat.exists_eq_add_of_le (Nat.le_of_not_lt hsmall)
    have hsum : k * binade + (binade + r) = r + binade * (k + 1) := by ring
    rw [hsum, gridUnits, Nat.add_mul_div_left r _ hpos, Nat.add_mul_mod_self_left,
      if_neg (Nat.ne_of_gt (Nat.lt_add_left _ k.succ_pos)), Nat.shiftLeft_eq]
    by_cases hr : r < binade
    · rw [Nat.div_eq_of_lt hr, Nat.mod_eq_of_lt hr, Nat.zero_add, Nat.add_sub_cancel]
    · -- the last multiple begins the next binade
      obtain rfl : r = binade := by omega
      rw [Nat.div_self hpos, Nat.mod_self, Nat.add_zero, Nat.add_sub_cancel_left, Nat.pow_succ]
      ring

theorem gridUnits_of_le {place : Nat} (h : place ≤ 2 * binade) : gridUnits place = place := by
  have hadd := @gridUnits_add 0 place h (.inl rfl)
  rwa [Nat.zero_mul, Nat.zero_add, Nat.pow_zero, Nat.mul_one] at hadd

/-- The distance of the magnitude at a place to the next one. -/
def gap (place : Nat) : Nat := 2 ^ (place / binade - 1)

/-- Every place is a multiple of its gap, and a large one when it is outside of the first binade. -/
theorem exists_eq_mul_gap (place : Nat) : ∃ h, h < 2 * binade ∧
    (place / binade - 1 = 0 ∨ binade ≤ h) ∧ place = (place / binade - 1) * binade + h := by
  have hpos := binade_pos
  have hdiv := Nat.div_add_mod place binade
  have hmod := Nat.mod_lt place hpos
  by_cases hsmall : place / binade = 0
  · refine ⟨place % binade, by omega, .inl (by omega), ?_⟩
    rw [hsmall] at hdiv ⊢
    omega
  · obtain ⟨k, hk⟩ := Nat.exists_eq_succ_of_ne_zero hsmall
    refine ⟨binade + place % binade, by omega, .inr (Nat.le_add_right _ _), ?_⟩
    rw [hk, Nat.succ_eq_add_one, Nat.add_sub_cancel]
    rw [hk, Nat.succ_eq_add_one, Nat.mul_add, Nat.mul_one, Nat.mul_comm] at hdiv
    omega

theorem gridUnits_succ (place : Nat) : gridUnits (place + 1) = gridUnits place + gap place := by
  obtain ⟨h, hlt, hge, heq⟩ := exists_eq_mul_gap place
  have hplace := @gridUnits_add (place / binade - 1) h (by omega) hge
  have hnext := @gridUnits_add (place / binade - 1) (h + 1) (by omega) (by omega)
  rw [← Nat.add_assoc] at hnext
  rw [← heq] at hplace hnext
  rw [hplace, hnext, gap, Nat.succ_mul]

theorem gap_pos (place : Nat) : 0 < gap place := Nat.two_pow_pos _

theorem gap_le_gap {place other : Nat} (h : place ≤ other) : gap place ≤ gap other :=
  Nat.pow_le_pow_right Nat.two_pos (Nat.sub_le_sub_right (Nat.div_le_div_right h) 1)

theorem strictMono_gridUnits : StrictMono gridUnits := by
  apply strictMono_nat_of_lt_succ
  intro place
  rw [gridUnits_succ]
  exact Nat.lt_add_of_pos_right (gap_pos place)

theorem gridUnits_zero : gridUnits 0 = 0 := gridUnits_of_le (Nat.zero_le _)

/-- From the second binade on, there are as many gaps in front of a place as there are places in a
binade. -/
theorem binade_mul_gap_le {place : Nat} (h : binade ≤ place) :
    binade * gap place ≤ gridUnits place := by
  obtain ⟨m, hlt, hge, heq⟩ := exists_eq_mul_gap place
  have hplace := @gridUnits_add (place / binade - 1) m (by omega) hge
  rw [← heq] at hplace
  rw [hplace, gap]
  apply Nat.mul_le_mul_right
  rcases hge with hk | hm
  · rw [hk] at heq
    omega
  · exact hm

theorem gridUnits_infinityPlace : gridUnits infinityPlace = 2 ^ 1024 * unitsPerOne := by
  have hadd := @gridUnits_add 2046 binade (by decide) (.inr (Nat.le_refl _))
  have hplace : 2046 * binade + binade = infinityPlace := by decide
  rw [hplace] at hadd
  rw [hadd, binade_eq, unitsPerOne_eq]
  exact two_pow_mul_two_pow rfl

/-- Doubled often enough, a number reaches the range of the multiples in one binade. -/
theorem exists_doublings {n : Nat} (hne : n ≠ 0) (h : n ≤ 2 * binade) :
    ∃ j ≤ 52, binade ≤ n * 2 ^ j ∧ n * 2 ^ j ≤ 2 * binade := by
  by_cases hlarge : binade ≤ n
  · refine ⟨0, Nat.zero_le _, ?_⟩
    omega
  · have hlog : n.log2 < 52 := (Nat.log2_lt hne).2 (by rw [← binade_eq]; omega)
    have hsplit : 2 ^ n.log2 * 2 ^ (52 - n.log2) = binade := by
      rw [← Nat.pow_add, binade_eq]
      congr 1
      omega
    refine ⟨52 - n.log2, by omega, ?_, ?_⟩
    · rw [← hsplit]
      exact Nat.mul_le_mul_right _ (Nat.log2_self_le hne)
    · calc n * 2 ^ (52 - n.log2) ≤ 2 ^ (n.log2 + 1) * 2 ^ (52 - n.log2) :=
            Nat.mul_le_mul_right _ Nat.lt_log2_self.le
        _ = 2 * binade := by rw [Nat.pow_succ', Nat.mul_assoc, hsplit]

/-- Up to `2 ^ 53` every whole number has a place. -/
theorem exists_gridUnits_eq {n : Nat} (h : n ≤ 2 * binade) :
    ∃ place < infinityPlace, gridUnits place = n * unitsPerOne := by
  by_cases hne : n = 0
  · refine ⟨0, by decide, ?_⟩
    rw [hne, gridUnits_zero, Nat.zero_mul]
  · obtain ⟨j, hj, hlow, hhigh⟩ := exists_doublings hne h
    refine ⟨(1074 - j) * binade + n * 2 ^ j, ?_, ?_⟩
    · have hmul : (1074 - j) * binade ≤ 1074 * binade := Nat.mul_le_mul_right _ (by omega)
      unfold infinityPlace
      unfold binade at *
      omega
    · rw [gridUnits_add hhigh (.inr hlow), unitsPerOne_eq, Nat.mul_assoc, ← Nat.pow_add]
      congr 2
      omega

/-! ## Values -/

/-- The rational number that a double stands for. An infinity counts as `2 ^ 1024`, which would come
next behind the finite magnitudes. -/
def value (x : Binary64) : ℚ :=
  if x.negative then -(x.units / unitsPerOne) else x.units / unitsPerOne

theorem unitsPerOne_cast_pos : (0 : ℚ) < unitsPerOne := Nat.cast_pos.2 unitsPerOne_pos

theorem abs_value (x : Binary64) : |x.value| = x.units / unitsPerOne := by
  have hnonneg : (0 : ℚ) ≤ x.units / unitsPerOne :=
    div_nonneg (Nat.cast_nonneg _) unitsPerOne_cast_pos.le
  unfold value
  split
  · rw [abs_neg, abs_of_nonneg hnonneg]
  · exact abs_of_nonneg hnonneg

theorem abs_value_le_iff (x : Binary64) (bound : Nat) :
    |x.value| ≤ bound ↔ x.units ≤ bound * unitsPerOne := by
  rw [abs_value, div_le_iff₀ unitsPerOne_cast_pos]
  exact_mod_cast Iff.rfl

theorem units_div_eq_iff (x : Binary64) (n : Nat) :
    (x.units : ℚ) / unitsPerOne = n ↔ x.units = n * unitsPerOne := by
  rw [div_eq_iff unitsPerOne_cast_pos.ne']
  exact_mod_cast Iff.rfl

theorem isFinite_iff (x : Binary64) : x.isFinite = true ↔ x.place < infinityPlace := by
  simp [isFinite]

theorem isNaN_eq_false_iff (x : Binary64) : x.isNaN = false ↔ x.place ≤ infinityPlace := by
  simp [isNaN]

/-- A double holds exactly the integer that its value is. -/
theorem toInt?_eq_some_iff {x : Binary64} {n : Int} :
    x.toInt? = some n ↔ x.isFinite = true ∧ x.value = n := by
  have hwhole : (x.units % unitsPerOne = 0 ∧
      (if x.negative then -(x.units / unitsPerOne : Nat) else (x.units / unitsPerOne : Nat) : Int) = n) ↔
      x.value = n := by
    constructor
    · rintro ⟨hmod, hn⟩
      have hunits := Nat.div_add_mod x.units unitsPerOne
      rw [hmod, Nat.add_zero, Nat.mul_comm] at hunits
      rw [value, (units_div_eq_iff x (x.units / unitsPerOne)).2 hunits.symm, ← hn]
      split
      · push_cast
        rfl
      · push_cast
        rfl
    · intro hvalue
      have habs : (x.units : ℚ) / unitsPerOne = n.natAbs := by
        rw [← abs_value, hvalue, Nat.cast_natAbs, Int.cast_abs]
      have hunits := (units_div_eq_iff x n.natAbs).1 habs
      rw [value, habs] at hvalue
      rw [hunits, Nat.mul_mod_left, Nat.mul_div_cancel _ unitsPerOne_pos]
      refine ⟨rfl, ?_⟩
      split
      · next hneg =>
        rw [if_pos hneg] at hvalue
        exact_mod_cast hvalue
      · next hneg =>
        rw [if_neg hneg, Nat.cast_natAbs] at hvalue
        exact_mod_cast hvalue
  rw [← hwhole, toInt?, Option.ite_none_right_eq_some, Bool.and_eq_true, beq_iff_eq, and_assoc,
    Option.some.injEq]

/-- In the first binade zero is the only whole number. -/
theorem eq_zero_of_place_lt {x : Binary64} {n : Int} (h : x.place < binade) (hn : x.value = n) :
    n = 0 := by
  have habs : (x.units : ℚ) / unitsPerOne = n.natAbs := by
    rw [← abs_value, hn, Nat.cast_natAbs, Int.cast_abs]
  have hunits := (units_div_eq_iff x n.natAbs).1 habs
  rw [units, gridUnits_of_le (by omega)] at hunits
  have hlarge := binade_le_unitsPerOne
  by_contra hne
  have hle := Nat.le_mul_of_pos_left unitsPerOne (Int.natAbs_pos.2 hne)
  omega

variable {place : Nat} (negative : Bool)

theorem toNat_bits_ofPlace (h : place ≤ infinityPlace) :
    (ofPlace negative place).bits.toNat = if negative then signBit + place else place := by
  unfold ofPlace infinityPlace binade signBit at *
  cases negative with
  | false =>
    show (UInt64.ofNat place).toNat = place
    exact UInt64.toNat_ofNat_of_lt' (by unfold UInt64.size; omega)
  | true =>
    show (UInt64.ofNat (_ + place)).toNat = _ + place
    exact UInt64.toNat_ofNat_of_lt' (by unfold UInt64.size; omega)

theorem place_ofPlace (h : place ≤ infinityPlace) : (ofPlace negative place).place = place := by
  rw [Binary64.place, toNat_bits_ofPlace negative h]
  unfold infinityPlace binade signBit at *
  split
  · omega
  · omega

theorem negative_ofPlace (h : place ≤ infinityPlace) :
    (ofPlace negative place).negative = negative := by
  rw [Binary64.negative, toNat_bits_ofPlace negative h]
  unfold infinityPlace binade signBit at *
  cases negative with
  | false => simp; omega
  | true => simp

theorem value_ofPlace (h : place ≤ infinityPlace) : (ofPlace negative place).value =
    if negative then -((gridUnits place : ℚ) / unitsPerOne) else gridUnits place / unitsPerOne := by
  rw [value, units, place_ofPlace negative h, negative_ofPlace negative h]

/-- Up to `2 ^ 53` every whole number is the value of a finite double. -/
theorem exists_value_eq {q : ℚ} {whole : Nat} (hle : whole ≤ 2 * binade) (hq : |q| = whole) :
    ∃ x : Binary64, x.isFinite = true ∧ x.value = q := by
  obtain ⟨place, hfinite, hunits⟩ := exists_gridUnits_eq hle
  refine ⟨ofPlace (decide (q < 0)) place, ?_, ?_⟩
  · rw [isFinite_iff, place_ofPlace _ hfinite.le]
    exact hfinite
  · rw [value_ofPlace _ hfinite.le, hunits, Nat.cast_mul,
      mul_div_cancel_right₀ _ unitsPerOne_cast_pos.ne', ← hq]
    simp only [decide_eq_true_eq]
    split
    · next hneg => rw [abs_of_neg hneg, neg_neg]
    · next hneg => exact abs_of_nonneg (not_lt.1 hneg)

end DocumentStore.Binary64
