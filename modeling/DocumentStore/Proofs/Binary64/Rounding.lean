import DocumentStore.Proofs.Binary64.Nearest

/-!
# Rounding is to the nearest

The double that a decimal literal is read as is the one nearest to its exact value, and of two that
are equally near it is the even one.

* `nearestPlace_roundDecimal`: the place that is computed for a literal is the nearest one;
* `Numeral.value` is the exact value, `RoundsTo` the rule of the standard, and `roundsTo_ofNumeral`
  shows that literals are read by it;
* `abs_value_ofNumeral_sub_le` and `two_mul_unitsPerOne_mul_abs_sub_le` bound the error.
-/

namespace DocumentStore

namespace Binary64

/-! ## Decimal literals -/

theorem two_pow_le_ten_pow {a b : Nat} (h : a ≤ 3 * b) : 2 ^ a ≤ 10 ^ b :=
  calc 2 ^ a ≤ 2 ^ (3 * b) := Nat.pow_le_pow_right Nat.two_pos h
    _ = 8 ^ b := Nat.pow_mul 2 3 b
    _ ≤ 10 ^ b := Nat.pow_le_pow_left (by decide) b

/-- The two outer cases of `roundDecimal` are right: so large a power of ten is beyond all magnitudes,
and its inverse is below half of the smallest one. -/
theorem gridUnits_infinityPlace_le {b : Nat} (h : 400 ≤ b) :
    gridUnits infinityPlace ≤ 10 ^ b * unitsPerOne := by
  rw [gridUnits_infinityPlace]
  exact Nat.mul_le_mul_right _ (two_pow_le_ten_pow (by omega))

theorem two_mul_unitsPerOne_le {b : Nat} (h : 400 ≤ b) : 2 * unitsPerOne ≤ 10 ^ b := by
  obtain ⟨c, rfl⟩ := Nat.exists_eq_succ_of_ne_zero (show b ≠ 0 by omega)
  have hle : unitsPerOne ≤ 10 ^ c := by
    rw [unitsPerOne_eq]
    exact two_pow_le_ten_pow (by omega)
  rw [Nat.pow_succ]
  omega

/-- Infinity is nearest to everything beyond it, and zero to everything below half a unit. -/
theorem nearestPlace_infinityPlace {v : ℚ} (h : (gridUnits infinityPlace : ℚ) ≤ v) :
    NearestPlace v infinityPlace := by
  have heven : infinityPlace % 2 = 0 := by decide
  refine ⟨le_rfl, fun {below} hbelow => ?_, fun h => absurd h (lt_irrefl _), fun _ _ => heven,
    fun _ _ => heven⟩
  have hle : (gridUnits below : ℚ) ≤ gridUnits infinityPlace :=
    NearestPlace.gridUnits_le (by omega)
  linarith

theorem nearestPlace_zero {v : ℚ} (h : 2 * v ≤ 1) : NearestPlace v 0 := by
  refine ⟨Nat.zero_le _, fun h => absurd h (Nat.succ_ne_zero _), fun _ => ?_,
    fun _ _ => rfl, fun _ _ => rfl⟩
  rw [gridUnits_zero, gridUnits_of_le (by decide), Nat.cast_zero, zero_add, Nat.cast_one]
  exact h

/-- The place that is computed for a decimal number is the nearest one. -/
theorem nearestPlace_roundDecimal (significand : Nat) (scale : Int) :
    NearestPlace (significand * 10 ^ scale * unitsPerOne) (roundDecimal significand scale) := by
  unfold roundDecimal
  by_cases hzero : significand = 0
  · rw [if_pos hzero, hzero, Nat.cast_zero, zero_mul, zero_mul]
    exact nearestPlace_zero (by norm_num)
  rw [if_neg hzero]
  by_cases hscale : 0 ≤ scale
  · obtain ⟨b, rfl⟩ := Int.eq_ofNat_of_zero_le hscale
    have hvalue : (significand * 10 ^ (b : Int) : ℚ) = (significand * 10 ^ b : Nat) := by
      push_cast
      rw [zpow_natCast]
    rw [hvalue]
    by_cases hlarge : 400 < (b : Int)
    · rw [if_pos hlarge]
      apply nearestPlace_infinityPlace
      have hle : gridUnits infinityPlace ≤ significand * 10 ^ b * unitsPerOne :=
        calc gridUnits infinityPlace ≤ 10 ^ b * unitsPerOne := gridUnits_infinityPlace_le (by omega)
          _ ≤ significand * 10 ^ b * unitsPerOne :=
            Nat.mul_le_mul_right _ (Nat.le_mul_of_pos_left _ (Nat.pos_of_ne_zero hzero))
      exact_mod_cast hle
    · rw [if_neg hlarge, if_neg (by omega), if_pos hscale]
      have hround := @nearestPlace_roundQuotient (significand * 10 ^ b) 1 Nat.one_pos
      rwa [Nat.cast_one, div_one] at hround
  · obtain ⟨b, hb⟩ := Int.eq_ofNat_of_zero_le (show 0 ≤ -scale by omega)
    obtain rfl : scale = -b := by omega
    have hpow : (0 : ℚ) < 10 ^ b := by positivity
    have hvalue : (significand * 10 ^ (-b : Int) * unitsPerOne : ℚ) =
        significand * unitsPerOne / (10 ^ b : Nat) := by
      push_cast
      rw [zpow_neg, zpow_natCast]
      field_simp
    rw [hvalue, if_neg (by omega)]
    by_cases hsmall : (significand.log2 + 1 : Nat) + (-b : Int) < -400
    · rw [if_pos hsmall]
      apply nearestPlace_zero
      -- a number of so few digits is not much above one
      obtain ⟨c, hc⟩ := Nat.exists_eq_add_of_le (show significand.log2 + 1 ≤ b by omega)
      have hdigits : significand ≤ 10 ^ (significand.log2 + 1) :=
        Nat.lt_log2_self.le.trans (two_pow_le_ten_pow (by omega))
      have hle : 2 * (significand * unitsPerOne) ≤ 10 ^ b :=
        calc 2 * (significand * unitsPerOne) = significand * (2 * unitsPerOne) := by ring
          _ ≤ 10 ^ (significand.log2 + 1) * 10 ^ c :=
            Nat.mul_le_mul hdigits (two_mul_unitsPerOne_le (by omega))
          _ = 10 ^ b := by rw [← Nat.pow_add, hc]
      rw [← mul_div_assoc, div_le_one₀ (by exact_mod_cast hpow)]
      exact_mod_cast hle
    · rw [if_neg hsmall, if_neg hscale]
      have hround := @nearestPlace_roundQuotient significand (10 ^ b) (by positivity)
      rwa [neg_neg, Int.toNat_natCast]

end Binary64

/-- The rational number that a numeral writes. -/
def Numeral.value (n : Numeral) : ℚ :=
  if n.negative then -(n.significand * 10 ^ n.scale) else n.significand * 10 ^ n.scale

theorem Numeral.magnitude_nonneg (n : Numeral) : (0 : ℚ) ≤ n.significand * 10 ^ n.scale :=
  mul_nonneg (Nat.cast_nonneg _) (zpow_nonneg (by norm_num) _)

theorem Numeral.abs_value (n : Numeral) : |n.value| = n.significand * 10 ^ n.scale := by
  unfold value
  split
  · rw [abs_neg, abs_of_nonneg n.magnitude_nonneg]
  · exact abs_of_nonneg n.magnitude_nonneg

namespace Binary64

/-- Rounding to the nearest, ties to even: no number is nearer, and of two that are equally near the
even one is taken. An infinity takes part with the value `2 ^ 1024`, as the standard has it. -/
structure RoundsTo (q : ℚ) (x : Binary64) : Prop where
  isNaN_eq : x.isNaN = false
  nearest (y : Binary64) : y.isNaN = false → |x.value - q| ≤ |y.value - q|
  even (y : Binary64) : y.isNaN = false → |y.value - q| = |x.value - q| → y.value ≠ x.value →
    x.place % 2 = 0 ∧ y.place % 2 = 1

/-- The value that a number is rounded to is determined. -/
theorem RoundsTo.unique {q : ℚ} {x y : Binary64} (hx : RoundsTo q x) (hy : RoundsTo q y) :
    x.value = y.value := by
  by_contra hne
  have heq := le_antisymm (hx.nearest y hy.isNaN_eq) (hy.nearest x hx.isNaN_eq)
  have hxy := hx.even y hy.isNaN_eq heq.symm (Ne.symm hne)
  have hyx := hy.even x hx.isNaN_eq heq hne
  omega

/-- What is the value of a double is not rounded at all. -/
theorem RoundsTo.value_eq {q : ℚ} {x y : Binary64} (hx : RoundsTo q x) (hy : y.isFinite = true)
    (heq : y.value = q) : x.value = q := by
  have hle := hx.nearest y ((isNaN_eq_false_iff y).2 ((isFinite_iff y).1 hy).le)
  rw [heq, sub_self, abs_zero] at hle
  exact sub_eq_zero.1 (abs_nonpos_iff.1 hle)

theorem abs_div_sub_mul (a b : ℚ) :
    |a / unitsPerOne - b| * unitsPerOne = |a - b * unitsPerOne| := by
  have hU := unitsPerOne_cast_pos
  rw [← abs_of_pos hU, ← abs_mul, sub_mul, abs_of_pos hU, div_mul_cancel₀ _ hU.ne']

/-- Between numbers of one sign the distance is that of their magnitudes. -/
theorem abs_value_ofPlace_sub {place : Nat} (hle : place ≤ infinityPlace) (m : ℚ) (negative : Bool) :
    |(ofPlace negative place).value - (if negative then -m else m)| =
      |(gridUnits place : ℚ) / unitsPerOne - m| := by
  rw [value_ofPlace negative hle]
  split
  · rw [← neg_sub', abs_neg]
  · rfl

/-- To round the magnitude and keep the sign is to round. -/
theorem NearestPlace.roundsTo {m : ℚ} {place : Nat} (hm : 0 ≤ m)
    (h : NearestPlace (m * unitsPerOne) place) (negative : Bool) :
    RoundsTo (if negative then -m else m) (ofPlace negative place) := by
  have hU := unitsPerOne_cast_pos
  have hplace := place_ofPlace negative h.le
  have hdistance := abs_value_ofPlace_sub h.le m negative
  generalize ofPlace negative place = x at *
  obtain ⟨q, hq⟩ : ∃ q, q = if negative then -m else m := ⟨_, rfl⟩
  rw [← hq] at hdistance ⊢
  have habs_q : |q| = m := by
    rw [hq]
    split
    · rw [abs_neg, abs_of_nonneg hm]
    · exact abs_of_nonneg hm
  have hdistance_mul : |x.value - q| * unitsPerOne = |(gridUnits place : ℚ) - m * unitsPerOne| := by
    rw [hdistance, abs_div_sub_mul]
  -- a number of the other sign is further away than its magnitude is
  have hdistance_le (y : Binary64) :
      |(gridUnits y.place : ℚ) - m * unitsPerOne| ≤ |y.value - q| * unitsPerOne := by
    have hle := mul_le_mul_of_nonneg_right (abs_abs_sub_abs_le y.value q) hU.le
    rwa [habs_q, abs_value, units, abs_div_sub_mul] at hle
  have hnearest (y : Binary64) (hy : y.isNaN = false) : |x.value - q| ≤ |y.value - q| := by
    apply le_of_mul_le_mul_right _ hU
    rw [hdistance_mul]
    exact (h.abs_sub_le ((isNaN_eq_false_iff y).1 hy)).trans (hdistance_le y)
  refine ⟨(isNaN_eq_false_iff x).2 (hplace ▸ h.le), hnearest, fun y hy heq hne => ?_⟩
  have hother := (isNaN_eq_false_iff y).1 hy
  by_cases hsame : y.place = place
  · -- then the two values are opposite, and equally near only to zero
    exfalso
    have habs : |y.value| = |x.value| := by
      rw [abs_value, abs_value, units, units, hsame, hplace]
    have hopposite := (abs_eq_abs.1 habs).resolve_left hne
    have hzero : q = 0 := by
      rcases abs_eq_abs.1 heq with hq | hq
      · exact absurd (by linarith) hne
      · linarith
    have hle := hnearest (ofPlace false 0) ((isNaN_eq_false_iff _).2 (by decide))
    have hvalue_zero : (ofPlace false 0).value = 0 := by
      rw [value_ofPlace false (Nat.zero_le _), gridUnits_zero]
      simp
    rw [hvalue_zero, hzero, sub_zero, sub_zero, abs_zero] at hle
    have hx : x.value = 0 := abs_nonpos_iff.1 hle
    exact hne (by rw [hopposite, hx, neg_zero])
  · rw [hplace]
    apply h.even hother hsame
    apply le_antisymm
    · rw [← hdistance_mul, ← heq]
      exact hdistance_le y
    · exact h.abs_sub_le hother

/-- A literal is read as the number nearest to the value that it writes. -/
theorem roundsTo_ofNumeral (n : Numeral) : RoundsTo n.value (ofNumeral n) :=
  (nearestPlace_roundDecimal n.significand n.scale).roundsTo n.magnitude_nonneg n.negative

/-- A literal and the number that it is read as are as far from each other as their magnitudes. -/
theorem abs_value_ofNumeral_sub (n : Numeral) :
    |(ofNumeral n).value - n.value| = |(|(ofNumeral n).value| - |n.value|)| := by
  have hle := (nearestPlace_roundDecimal n.significand n.scale).le
  rw [abs_value, units, n.abs_value, ofNumeral, place_ofPlace n.negative hle]
  exact abs_value_ofPlace_sub hle _ n.negative

/-- A literal that is read as a finite number is off by half a gap at most. -/
theorem two_mul_abs_value_ofNumeral_sub_le {n : Numeral} (hfinite : (ofNumeral n).isFinite) :
    2 * (|(ofNumeral n).value - n.value| * unitsPerOne) ≤ gap (ofNumeral n).place := by
  have hnearest := nearestPlace_roundDecimal n.significand n.scale
  rw [isFinite_iff, ofNumeral, place_ofPlace n.negative hnearest.le] at hfinite
  have herror := hnearest.two_mul_abs_sub_le
    (mul_nonneg n.magnitude_nonneg unitsPerOne_cast_pos.le) hfinite
  rw [← abs_div_sub_mul, ← abs_value_ofPlace_sub hnearest.le _ n.negative] at herror
  rwa [ofNumeral, place_ofPlace n.negative hnearest.le]

/-- Outside of the first binade that is one part in `2 * binade`, and in the first one it is half a
unit. -/
theorem abs_value_ofNumeral_sub_le {n : Numeral} (hfinite : (ofNumeral n).isFinite)
    (h : binade ≤ (ofNumeral n).place) :
    2 * binade * |(ofNumeral n).value - n.value| ≤ |(ofNumeral n).value| := by
  have herror := two_mul_abs_value_ofNumeral_sub_le hfinite
  have hgap : (binade * gap (ofNumeral n).place : ℚ) ≤ (ofNumeral n).units := by
    exact_mod_cast binade_mul_gap_le h
  rw [abs_value, le_div_iff₀ unitsPerOne_cast_pos]
  have hmul := mul_le_mul_of_nonneg_left herror (Nat.cast_nonneg binade)
  linarith

theorem two_mul_unitsPerOne_mul_abs_sub_le {n : Numeral} (hfinite : (ofNumeral n).isFinite)
    (h : (ofNumeral n).place < binade) :
    2 * unitsPerOne * |(ofNumeral n).value - n.value| ≤ 1 := by
  have herror := two_mul_abs_value_ofNumeral_sub_le hfinite
  rw [gap, Nat.div_eq_of_lt h, Nat.zero_sub, Nat.pow_zero, Nat.cast_one] at herror
  linarith

end Binary64

end DocumentStore
