import DocumentStore.Binary64.Rounding
import DocumentStore.Proofs.Binary64.Grid
import Mathlib.Algebra.Order.Ring.Abs
import Mathlib.Tactic.LinearCombination

/-!
# The nearest place of the grid

A quotient is rounded by counting the doublings of the spacing below it and rounding to a whole
number in that spacing. The place that is found so is the nearest one of the whole grid, although the
spacing is another one in front of the binade and behind it.

* `halfEven_nearest`: rounding a quotient to a whole number;
* `NearestPlace` says between which midpoints a magnitude lies, in units of the smallest one;
* `NearestPlace.abs_sub_le`, `NearestPlace.even` and `NearestPlace.two_mul_abs_sub_le` are what that
  says about all other places, about ties and about the error;
* `nearestPlace_roundQuotient` shows it of the computed places.
-/

namespace DocumentStore

namespace Binary64

/-! ## Quotients -/

/-- Rounding a quotient to a whole number is off by a half at most, and by a half only upwards or
downwards to an even number. -/
theorem halfEven_bounds {num den : Nat} (h : 0 < den) :
    2 * num ≤ (2 * halfEven num den + 1) * den ∧ 2 * halfEven num den * den ≤ 2 * num + den ∧
    (2 * num = (2 * halfEven num den + 1) * den → halfEven num den % 2 = 0) ∧
    (2 * halfEven num den * den = 2 * num + den → halfEven num den % 2 = 0) := by
  have hdiv := Nat.div_add_mod num den
  have hmod := Nat.mod_lt num h
  rw [Nat.mul_comm] at hdiv
  unfold halfEven
  generalize num / den = quotient at *
  generalize num % den = rest at *
  subst hdiv
  have hstep : (2 * (quotient + 1)) * den = 2 * (quotient * den) + 2 * den := by ring
  have hplus : (2 * (quotient + 1) + 1) * den = 2 * (quotient * den) + 3 * den := by ring
  have hodd : (2 * quotient + 1) * den = 2 * (quotient * den) + den := by ring
  have heven : 2 * quotient * den = 2 * (quotient * den) := by ring
  dsimp only
  split
  · rw [hodd, heven]
    omega
  · split
    · rw [hplus, hstep]
      omega
    · -- a half: the quotient is even, or the number above it is
      obtain hq | hq := Nat.mod_two_eq_zero_or_one quotient
      · simp only [hq, Nat.add_zero, hodd, heven, implies_true, and_true]
        omega
      · simp only [hq, hplus, hstep]
        omega

theorem halfEven_nearest {num den : Nat} {w : ℚ} (h : 0 < den) (hw : w * den = num) :
    (2 * halfEven num den ≤ 2 * w + 1 ∧ 2 * w ≤ 2 * halfEven num den + 1) ∧
    (2 * halfEven num den = 2 * w + 1 → halfEven num den % 2 = 0) ∧
    (2 * w = 2 * halfEven num den + 1 → halfEven num den % 2 = 0) := by
  obtain ⟨hhigh, hlow, hhigh_even, hlow_even⟩ := @halfEven_bounds num den h
  generalize halfEven num den = nearest at *
  have hden : (0 : ℚ) < den := Nat.cast_pos.2 h
  have habove : (2 * w + 1) * den = (2 * num + den : Nat) := by
    push_cast
    linear_combination 2 * hw
  have hdouble : 2 * w * den = (2 * num : Nat) := by
    push_cast
    linear_combination 2 * hw
  refine ⟨⟨?_, ?_⟩, fun heq => hlow_even ?_, fun heq => hhigh_even ?_⟩
  · apply le_of_mul_le_mul_right _ hden
    rw [habove]
    exact_mod_cast hlow
  · apply le_of_mul_le_mul_right _ hden
    rw [hdouble]
    exact_mod_cast hhigh
  · rw [← heq] at habove
    exact_mod_cast habove
  · rw [heq] at hdouble
    exact_mod_cast hdouble.symm

/-- A magnitude, in units of the smallest one, lies nearest to a place of the grid: between the
midpoints to the places before and behind it, and on a midpoint only when the place is even. Infinity
is the last place. -/
structure NearestPlace (v : ℚ) (place : Nat) : Prop where
  le : place ≤ infinityPlace
  low {below : Nat} : below + 1 = place → (gridUnits below + gridUnits place : ℚ) ≤ 2 * v
  high : place < infinityPlace → 2 * v ≤ gridUnits place + gridUnits (place + 1)
  low_even {below : Nat} : below + 1 = place → (gridUnits below + gridUnits place : ℚ) = 2 * v →
    place % 2 = 0
  high_even : place < infinityPlace → 2 * v = gridUnits place + gridUnits (place + 1) →
    place % 2 = 0

/-- A number is not further away from the upper end of an interval when it lies beyond the midpoint. -/
theorem abs_sub_le_abs_sub {a b v : ℚ} (hab : a ≤ b) (h : a + b ≤ 2 * v) : |b - v| ≤ |a - v| := by
  have hle := le_abs_self (v - a)
  rw [abs_sub_comm a v, abs_le]
  constructor
  · linarith
  · linarith

theorem eq_midpoint {a b v : ℚ} (hab : a < b) (h : |a - v| = |b - v|) : a + b = 2 * v := by
  rcases abs_eq_abs.1 h with heq | heq
  · linarith
  · linarith

namespace NearestPlace

variable {v : ℚ} {place other : Nat}

theorem gridUnits_le (h : place ≤ other) : (gridUnits place : ℚ) ≤ gridUnits other :=
  Nat.cast_le.2 (strictMono_gridUnits.monotone h)

/-- No other place is nearer. -/
theorem abs_sub_le (h : NearestPlace v place) (hother : other ≤ infinityPlace) :
    |(gridUnits place : ℚ) - v| ≤ |(gridUnits other : ℚ) - v| := by
  rcases Nat.lt_trichotomy other place with hlt | rfl | hlt
  · obtain ⟨below, rfl⟩ := Nat.exists_eq_succ_of_ne_zero (Nat.ne_of_gt (Nat.zero_lt_of_lt hlt))
    have hbelow := gridUnits_le (Nat.le_of_lt_succ hlt)
    have hmid := h.low rfl
    exact abs_sub_le_abs_sub (gridUnits_le hlt.le) (by linarith)
  · exact le_rfl
  · have hmid := h.high (by omega)
    have habove := gridUnits_le (Nat.succ_le_of_lt hlt)
    rw [← abs_neg, ← abs_neg (_ - v), neg_sub', neg_sub']
    exact abs_sub_le_abs_sub (neg_le_neg (gridUnits_le hlt.le)) (by linarith)

/-- Of two places that are equally near the even one is taken, and the other one is odd. -/
theorem even (h : NearestPlace v place) (hother : other ≤ infinityPlace) (hne : other ≠ place)
    (heq : |(gridUnits other : ℚ) - v| = |(gridUnits place : ℚ) - v|) :
    place % 2 = 0 ∧ other % 2 = 1 := by
  rcases Nat.lt_or_gt_of_ne hne with hlt | hlt
  · obtain ⟨below, rfl⟩ := Nat.exists_eq_succ_of_ne_zero (Nat.ne_of_gt (Nat.zero_lt_of_lt hlt))
    have hbelow := gridUnits_le (Nat.le_of_lt_succ hlt)
    have hmid := eq_midpoint (Nat.cast_lt.2 (strictMono_gridUnits hlt)) heq
    have hlow := h.low rfl
    -- the place in front is not nearer, so it is the other one
    have hplace : other = below :=
      strictMono_gridUnits.injective (by exact_mod_cast le_antisymm hbelow (by linarith))
    rw [hplace] at hmid
    have heven := h.low_even rfl hmid
    omega
  · have habove := gridUnits_le (Nat.succ_le_of_lt hlt)
    have hmid := eq_midpoint (Nat.cast_lt.2 (strictMono_gridUnits hlt)) heq.symm
    have hhigh := h.high (by omega)
    have hplace : other = place + 1 :=
      strictMono_gridUnits.injective (by exact_mod_cast le_antisymm (by linarith) habove)
    rw [hplace] at hmid
    have heven := h.high_even (by omega) hmid.symm
    omega

/-- Rounding to a finite place is off by half a gap at most. -/
theorem two_mul_abs_sub_le (h : NearestPlace v place) (hv : 0 ≤ v) (hfinite : place < infinityPlace) :
    2 * |(gridUnits place : ℚ) - v| ≤ gap place := by
  have hhigh := h.high hfinite
  rw [gridUnits_succ, Nat.cast_add] at hhigh
  have hlow : 2 * (gridUnits place - v : ℚ) ≤ gap place := by
    cases place with
    | zero =>
      have hgap : (0 : ℚ) ≤ gap 0 := Nat.cast_nonneg _
      rw [gridUnits_zero, Nat.cast_zero]
      linarith
    | succ below =>
      have hmid := h.low rfl
      have hgap : (gap below : ℚ) ≤ gap (below + 1) := Nat.cast_le.2 (gap_le_gap (Nat.le_succ _))
      rw [gridUnits_succ, Nat.cast_add] at hmid ⊢
      linarith
  rcases abs_cases ((gridUnits place : ℚ) - v) with ⟨habs, -⟩ | ⟨habs, -⟩
  · rw [habs]
    exact hlow
  · rw [habs]
    linarith

end NearestPlace

/-- Beyond the last place all is nearest to infinity. -/
theorem NearestPlace.of_midpoints {v : ℚ} {place : Nat}
    (hlow : ∀ below, below + 1 = place → (gridUnits below + gridUnits place : ℚ) ≤ 2 * v ∧
      ((gridUnits below + gridUnits place : ℚ) = 2 * v → place % 2 = 0))
    (hhigh : 2 * v ≤ gridUnits place + gridUnits (place + 1) ∧
      (2 * v = gridUnits place + gridUnits (place + 1) → place % 2 = 0)) :
    NearestPlace v (min infinityPlace place) := by
  by_cases hle : place ≤ infinityPlace
  · rw [Nat.min_eq_right hle]
    exact ⟨hle, fun h => (hlow _ h).1, fun _ => hhigh.1, fun h => (hlow _ h).2, fun _ => hhigh.2⟩
  · rw [Nat.min_eq_left (by omega)]
    have heven : infinityPlace % 2 = 0 := by decide
    obtain ⟨before, rfl⟩ := Nat.exists_eq_succ_of_ne_zero (show place ≠ 0 by omega)
    refine ⟨le_rfl, fun {below} hbelow => ?_, fun h => absurd h (lt_irrefl _), fun _ _ => heven,
      fun _ _ => heven⟩
    have hmid := (hlow before rfl).1
    have hfirst := gridUnits_le (show below ≤ before by omega)
    have hlast := gridUnits_le (show infinityPlace ≤ before + 1 by omega)
    linarith

theorem two_pow_le_gap {k h : Nat} (hge : k = 0 ∨ binade ≤ h) : 2 ^ k ≤ gap (k * binade + h) := by
  apply Nat.pow_le_pow_right Nat.two_pos
  rcases hge with rfl | hge
  · exact Nat.zero_le _
  · have hdiv : k + 1 ≤ (k * binade + h) / binade := by
      rw [Nat.le_div_iff_mul_le binade_pos, Nat.succ_mul]
      exact Nat.add_le_add_left hge _
    omega

/-- Where the places are `2 ^ k` units apart, rounding is rounding to a multiple of `2 ^ k`. -/
theorem nearestPlace_of_multiple {w : ℚ} {k h : Nat} (hle : h ≤ 2 * binade)
    (hge : k = 0 ∨ binade ≤ h ∧ (binade : ℚ) ≤ w) (hlow : (2 * h : ℚ) ≤ 2 * w + 1)
    (hhigh : 2 * w ≤ 2 * h + 1) (hlow_even : (2 * h : ℚ) = 2 * w + 1 → h % 2 = 0)
    (hhigh_even : 2 * w = 2 * h + 1 → h % 2 = 0) :
    NearestPlace (w * 2 ^ k) (min infinityPlace (k * binade + h)) := by
  have hpow : (0 : ℚ) < 2 ^ k := by positivity
  have hge' : k = 0 ∨ binade ≤ h := hge.imp_right And.left
  have hplace : (gridUnits (k * binade + h) : ℚ) = h * 2 ^ k := by
    rw [gridUnits_add hle hge']
    push_cast
    rfl
  have hparity : (k * binade + h) % 2 = h % 2 := by
    unfold binade
    omega
  apply NearestPlace.of_midpoints
  · intro below hbelow
    by_cases hfirst : k = 0 ∨ binade < h
    · -- the place in front is a multiple of the same spacing
      obtain ⟨m, rfl⟩ := Nat.exists_eq_succ_of_ne_zero (show h ≠ 0 by
        rcases hfirst with rfl | hlt <;> omega)
      obtain rfl : below = k * binade + m := by omega
      rw [hplace, hparity, gridUnits_add (by omega) (by omega)]
      push_cast at *
      have hsum : (m * 2 ^ k + (m + 1) * 2 ^ k : ℚ) = (2 * (m + 1) - 1) * 2 ^ k := by ring
      rw [hsum, ← mul_assoc]
      constructor
      · exact mul_le_mul_of_nonneg_right (by linarith) hpow.le
      · intro heq
        have hcancel := mul_right_cancel₀ hpow.ne' heq
        exact hlow_even (by linarith)
    · -- the place begins a binade, and the magnitude is not below it
      have hw : (binade : ℚ) ≤ w := by
        rcases hge with hk | hge
        · exact absurd (.inl hk) hfirst
        · exact hge.2
      obtain rfl : h = binade := by omega
      have hlt : (gridUnits below : ℚ) < gridUnits (k * binade + binade) :=
        Nat.cast_lt.2 (strictMono_gridUnits (by omega))
      have hmul := mul_le_mul_of_nonneg_right hw hpow.le
      constructor
      · linarith
      · intro heq
        linarith
  · have hgap : (2 ^ k : ℚ) ≤ gap (k * binade + h) := by exact_mod_cast two_pow_le_gap hge'
    have hmul := mul_le_mul_of_nonneg_right hhigh hpow.le
    rw [gridUnits_succ, Nat.cast_add, hplace, hparity]
    constructor
    · linarith
    · intro heq
      apply hhigh_even
      apply mul_right_cancel₀ hpow.ne'
      linarith

/-- The number of doublings below a quotient is counted so that the quotient, in that spacing, is less
than `2 * binade`, and not less than `binade` unless there are none. -/
theorem binade_bounds {units den k : Nat} (hden : 0 < den) (hk : k = (units / den).log2 - 52) :
    units < 2 * binade * (den * 2 ^ k) ∧ (k = 0 ∨ binade * (den * 2 ^ k) ≤ units) := by
  have hsplit (m : Nat) : m * (den * 2 ^ k) = m * 2 ^ k * den := by ring
  rw [hsplit, hsplit, ← Nat.div_lt_iff_lt_mul hden, ← Nat.le_div_iff_mul_le hden, binade_eq]
  constructor
  · calc units / den < 2 ^ ((units / den).log2 + 1) := Nat.lt_log2_self
      _ ≤ 2 ^ (53 + k) := Nat.pow_le_pow_right Nat.two_pos (by omega)
      _ = 2 * 2 ^ 52 * 2 ^ k := Nat.pow_add 2 53 k
  · by_cases hzero : k = 0
    · exact .inl hzero
    · right
      have hne : units / den ≠ 0 := by
        intro h
        rw [h] at hk
        exact hzero hk
      calc 2 ^ 52 * 2 ^ k = 2 ^ (units / den).log2 := by
            rw [← Nat.pow_add]
            congr 1
            omega
        _ ≤ units / den := Nat.log2_self_le hne

/-- A quotient is rounded to the nearest place. -/
theorem nearestPlace_roundQuotient {num den : Nat} (hden : 0 < den) :
    NearestPlace (num * unitsPerOne / den) (roundQuotient num den) := by
  unfold roundQuotient
  rw [← Nat.cast_mul]
  generalize num * unitsPerOne = units
  obtain ⟨hlt, hge⟩ := @binade_bounds units den _ hden rfl
  dsimp only
  generalize (units / den).log2 - 52 = k at *
  rw [Nat.shiftLeft_eq]
  -- in the spacing of the places around it the quotient is `w`
  have hpos : 0 < den * 2 ^ k := Nat.mul_pos hden (Nat.two_pow_pos k)
  have hcast : (0 : ℚ) < (den * 2 ^ k : Nat) := Nat.cast_pos.2 hpos
  obtain ⟨w, hw⟩ : ∃ w : ℚ, w * (den * 2 ^ k : Nat) = units :=
    ⟨units / (den * 2 ^ k : Nat), div_mul_cancel₀ _ hcast.ne'⟩
  have hvalue : (units / den : ℚ) = w * 2 ^ k := by
    rw [← hw, div_eq_iff (Nat.cast_ne_zero.2 hden.ne')]
    push_cast
    ring
  have hw_lt : w < 2 * binade := by
    apply lt_of_mul_lt_mul_right _ hcast.le
    rw [hw]
    exact_mod_cast hlt
  have hw_ge : k = 0 ∨ (binade : ℚ) ≤ w := by
    apply hge.imp_right
    intro hge
    apply le_of_mul_le_mul_right _ hcast
    rw [hw]
    exact_mod_cast hge
  obtain ⟨⟨hlow, hhigh⟩, hlow_even, hhigh_even⟩ := halfEven_nearest hpos hw
  generalize halfEven units (den * 2 ^ k) = h at *
  rw [hvalue]
  refine nearestPlace_of_multiple ?_ ?_ hlow hhigh hlow_even hhigh_even
  · have hlt : (2 * h : ℚ) < 4 * binade + 1 := by linarith
    norm_cast at hlt
    omega
  · apply hw_ge.imp_right
    intro hge
    have hle : (2 * binade : ℚ) ≤ 2 * h + 1 := by linarith
    norm_cast at hle
    exact ⟨by omega, hge⟩

end Binary64

end DocumentStore
