import DocumentStore.Proofs.Binary64.Rounding
import DocumentStore.Proofs.Database.Lookup

/-!
# Which integers a text stands for

A text is loosely equal to an integer when the number that is read from it is that integer. A decimal
literal that is written as an integer stands for this integer alone. Every other literal is read as
the nearest double first, and stands for the integer that this double holds.

* `Selects` says that a text stands for an integer, and `selects_iff_asInt?`, `selects_iff_agrees`
  and `coerceId_string_iff` where that is asked;
* `selects_of_isInteger` and `selects_of_not_isInteger` are the two ways in which a literal is read;
* `lt_significand` bounds from below the digits of a literal that is not the integer next to it;
* `selects_numeral` says which integer a literal stands for, and when it is another one than the
  literal denotes.
-/

namespace DocumentStore.Number

open Binary64

/-- A text stands for an integer. -/
def Selects (text : String) (n : Int64) : Prop := sameReading (parse text) (some (int n)) = true

variable {text : String} {n : Int64}

theorem selects_iff_asInt? : Selects text n ↔ (parse text).bind asInt? = some n := by
  unfold Selects
  cases parse text with
  | none => simp [sameReading]
  | some m =>
    show m.equal (int n) = true ↔ m.asInt? = some n
    rw [equal_int, beq_iff_eq]

theorem selects_iff_agrees : Selects text n ↔ (Value.string text).agrees (.int64 n) = true := Iff.rfl

theorem coerceId_string_iff {id : Nat} : coerceId (.string text) = some id ↔
    0 < id ∧ id ≤ maxId ∧ Selects text (Int64.ofNat id) := by
  rw [coerceId_eq_some_iff, selects_iff_asInt?]
  rfl

theorem fits_iff (m : Int) : fits m = true ↔ (Int64.ofInt m).toInt = m := by
  unfold fits
  rw [Bool.and_eq_true, decide_eq_true_eq, decide_eq_true_eq, Int64.toInt_minValue,
    Int64.toInt_maxValue]
  constructor
  · intro h
    exact Int64.toInt_ofInt_of_le h.1 (by omega)
  · intro h
    have hle := (Int64.ofInt m).le_toInt
    have hlt := (Int64.ofInt m).toInt_lt
    omega

theorem fits_toInt (n : Int64) : fits n.toInt = true := by
  rw [fits_iff, Int64.ofInt_toInt]

/-- A double holds exactly the integer of sixty-four bits that its value is. -/
theorem asInt?_float_eq_some_iff {x : Binary64} :
    (float x).asInt? = some n ↔ x.isFinite = true ∧ x.value = n.toInt := by
  rw [← toInt?_eq_some_iff, asInt?, Option.map_eq_some_iff]
  constructor
  · intro h
    obtain ⟨m, hm, hn⟩ := h
    rw [Option.filter_eq_some_iff] at hm
    rw [hm.1, ← hn, (fits_iff m).1 hm.2]
  · intro h
    refine ⟨n.toInt, ?_, Int64.ofInt_toInt n⟩
    rw [Option.filter_eq_some_iff]
    exact ⟨h, fits_toInt n⟩

/-! ## Reading a literal -/

theorem exactLimit_eq : exactLimit = 2 * binade := by decide

theorem exactLimit_cast : (exactLimit : ℚ) = 2 * binade := by
  rw [exactLimit_eq, Nat.cast_mul, Nat.cast_two]

/-- An infinity lies beyond the exact range. -/
theorem isFinite_of_abs_value_le {x : Binary64} (hnan : x.isNaN = false)
    (h : |x.value| ≤ exactLimit) : x.isFinite = true := by
  rw [isFinite_iff]
  apply Nat.lt_of_le_of_ne ((isNaN_eq_false_iff x).1 hnan)
  intro hplace
  rw [abs_value_le_iff, units, hplace, gridUnits_infinityPlace, exactLimit_eq, binade_eq,
    ← Nat.pow_succ'] at h
  have hle := Nat.le_of_mul_le_mul_right h unitsPerOne_pos
  exact absurd (Nat.pow_le_pow_iff_right (by omega) |>.1 hle) (by omega)

variable {literal : Numeral} {chars : List Char}

theorem readInt?_of_scan? (hscan : Numeral.scan? chars = some literal) :
    readInt? chars = if literal.isInteger ∧ fits literal.toInt then
      some (int (Int64.ofInt literal.toInt)) else none := by
  unfold readInt? Numeral.readInt?
  rw [hscan]
  by_cases hinteger : literal.isInteger
  · by_cases hfits : fits literal.toInt
    · simp [hinteger, hfits]
    · simp [hinteger, hfits]
  · simp [hinteger]

theorem readFloat?_of_scan? (hscan : Numeral.scan? chars = some literal)
    (hdecimal : literal.isDecimal) :
    readFloat? chars = if |(ofNumeral literal).value| ≤ exactLimit then
      some (float (ofNumeral literal)) else none := by
  have hnan := (roundsTo_ofNumeral literal).isNaN_eq
  unfold readFloat? read?
  rw [hscan, Option.filter_some, if_pos hdecimal]
  dsimp only
  by_cases hle : |(ofNumeral literal).value| ≤ exactLimit
  · have hfinite := isFinite_of_abs_value_le hnan hle
    rw [if_pos hle]
    rw [abs_value_le_iff] at hle
    simp [hfinite, hle]
  · rw [if_neg hle]
    rw [abs_value_le_iff, not_le] at hle
    simp [hle]

/-- An integer literal denotes its digits with their sign. -/
theorem value_of_isInteger (h : literal.isInteger) : literal.value = literal.toInt := by
  unfold Numeral.isInteger at h
  rw [Bool.and_eq_true, Bool.and_eq_true, Option.isNone_iff_eq_none, Option.isNone_iff_eq_none] at h
  unfold Numeral.value Numeral.toInt Numeral.significand Numeral.digits Numeral.scale
  rw [h.1.2, h.2, Option.getD_none, Option.getD_none, List.append_nil, List.length_nil,
    Nat.cast_zero, sub_zero, zpow_zero, mul_one]
  split
  · push_cast
    rfl
  · push_cast
    rfl

/-- Within the exact range a literal and the double that it is read as differ by one at most. -/
theorem abs_sub_le_one (h : |(ofNumeral literal).value| ≤ exactLimit) :
    |(ofNumeral literal).value - literal.value| ≤ 1 := by
  have hfinite := isFinite_of_abs_value_le (roundsTo_ofNumeral literal).isNaN_eq h
  by_cases hplace : binade ≤ (ofNumeral literal).place
  · have herror := abs_value_ofNumeral_sub_le hfinite hplace
    have hpos : (0 : ℚ) < 2 * binade := mul_pos two_pos (Nat.cast_pos.2 binade_pos)
    rw [exactLimit_cast] at h
    apply le_of_mul_le_mul_left _ hpos
    rw [mul_one]
    exact herror.trans h
  · have herror := two_mul_unitsPerOne_mul_abs_sub_le hfinite (by omega)
    have hone : (1 : ℚ) ≤ unitsPerOne := Nat.one_le_cast.2 unitsPerOne_pos
    have hnonneg := abs_nonneg ((ofNumeral literal).value - literal.value)
    nlinarith

/-- An integer that does not fit is too large for a double in the exact range, too. -/
theorem fits_of_abs_value_le (h : |(ofNumeral literal).value| ≤ exactLimit)
    (hinteger : literal.isInteger) : fits literal.toInt = true := by
  have hone := abs_le.1 (abs_sub_le_one h)
  have hrange := abs_le.1 h
  have hlimit : (exactLimit : ℚ) = 2 ^ 53 := by
    rw [exactLimit_eq, binade_eq]
    norm_num
  rw [value_of_isInteger hinteger] at hone
  have hlow : (-2 ^ 63 : ℚ) ≤ literal.toInt := by linarith
  have hhigh : (literal.toInt : ℚ) < 2 ^ 63 := by linarith
  rw [fits_iff]
  exact Int64.toInt_ofInt_of_le (by exact_mod_cast hlow) (by exact_mod_cast hhigh)

section

variable (hscan : Numeral.scan? (WhiteSpace.trim text.toList) = some literal)
  (hdecimal : literal.isDecimal)

include hscan hdecimal

/-- What is written as an integer is read as this integer where it fits, and never as a double. -/
theorem parse_of_isInteger (h : literal.isInteger) : parse text =
    if fits literal.toInt then some (int (Int64.ofInt literal.toInt)) else none := by
  rw [parse, readInt?_of_scan? hscan]
  by_cases hfits : fits literal.toInt
  · rw [if_pos ⟨h, hfits⟩, if_pos hfits, Option.some_or]
  · have hbeyond := mt (fun hle => fits_of_abs_value_le hle h) hfits
    rw [if_neg (fun hboth => hfits hboth.2), if_neg hfits, Option.none_or,
      readFloat?_of_scan? hscan hdecimal, if_neg hbeyond]

/-- What is written as an integer stands for this integer. -/
theorem selects_of_isInteger (h : literal.isInteger) :
    Selects text n ↔ literal.value = n.toInt := by
  rw [selects_iff_asInt?, parse_of_isInteger hscan hdecimal h, value_of_isInteger h, Int.cast_inj]
  by_cases hfits : fits literal.toInt
  · rw [if_pos hfits, Option.bind_some, asInt?, Option.some.injEq, ← Int64.toInt_inj,
      (fits_iff _).1 hfits]
  · rw [if_neg hfits, Option.bind_none]
    constructor
    · intro hnone
      contradiction
    · intro heq
      rw [heq] at hfits
      exact absurd (fits_toInt n) hfits

/-- Every other literal stands for the integer that the double nearest to it holds. -/
theorem selects_of_not_isInteger (h : ¬ literal.isInteger) :
    Selects text n ↔ |(n.toInt : ℚ)| ≤ exactLimit ∧ (ofNumeral literal).value = n.toInt := by
  rw [selects_iff_asInt?, parse, readInt?_of_scan? hscan, if_neg (fun hboth => h hboth.1),
    Option.none_or, readFloat?_of_scan? hscan hdecimal]
  by_cases hle : |(ofNumeral literal).value| ≤ exactLimit
  · have hfinite := isFinite_of_abs_value_le (roundsTo_ofNumeral literal).isNaN_eq hle
    rw [if_pos hle, Option.bind_some, asInt?_float_eq_some_iff]
    constructor
    · intro hheld
      exact ⟨hheld.2 ▸ hle, hheld.2⟩
    · intro hheld
      exact ⟨hfinite, hheld.2⟩
  · rw [if_neg hle, Option.bind_none]
    constructor
    · intro hnone
      contradiction
    · intro hheld
      exact absurd (hheld.2 ▸ hheld.1) hle

end

/-! ## Literals that stand for another integer -/

/-- Where a multiple of ten and a number differ, but by one part in `exactLimit` at most, both are
beyond the exact range. -/
theorem lt_of_near_multiple {t significand : Nat} (hne : t * 10 ≠ significand)
    (hnear : (exactLimit : Int) * |((t * 10 : Nat) : Int) - significand| ≤ (t * 10 : Nat)) :
    exactLimit < significand := by
  unfold exactLimit at *
  rcases abs_cases (((t * 10 : Nat) : Int) - significand) with habs | habs
  · omega
  · omega

/-- No multiple of ten beyond the exact range is that close to a number inside it. -/
theorem multiple_le_of_near {n t : Nat} (hn : n ≤ exactLimit)
    (hnear : (exactLimit : Int) * |(n : Int) - (t * 10 : Nat)| ≤ n) : t * 10 ≤ exactLimit := by
  unfold exactLimit at *
  rcases abs_cases ((n : Int) - (t * 10 : Nat)) with habs | habs
  · omega
  · omega

/-- A decimal number of few digits that is close to a whole one in the exact range, in relation to its
magnitude, is a whole one in that range itself: the digits fill the gap between the two. -/
theorem lt_significand {n significand : Nat} {scale : Int} (hn : n ≤ exactLimit)
    (hnear : exactLimit * |(n : ℚ) - significand * 10 ^ scale| ≤ n)
    (hwhole : ∀ whole ≤ exactLimit, (significand * 10 ^ scale : ℚ) ≠ (whole : Nat)) :
    exactLimit < significand := by
  rcases Int.lt_or_le scale 0 with hscale | hscale
  · -- both sides times the power of ten: a multiple of ten against the digits
    obtain ⟨c, rfl⟩ : ∃ c : Nat, scale = -((c + 1 : Nat) : Int) :=
      ⟨(-scale).toNat - 1, by omega⟩
    have hpow : (0 : ℚ) < (10 ^ c * 10 : Nat) := Nat.cast_pos.2 (by positivity)
    obtain ⟨v, hv⟩ : ∃ v : ℚ, v = significand * 10 ^ (-((c + 1 : Nat) : Int)) := ⟨_, rfl⟩
    have hscaled : v * (10 ^ c * 10 : Nat) = significand := by
      rw [hv, zpow_neg, zpow_natCast]
      push_cast
      rw [← pow_succ, inv_mul_cancel_right₀ (by positivity)]
    rw [← hv] at hnear hwhole
    have hmul := mul_le_mul_of_nonneg_right hnear hpow.le
    rw [mul_assoc, ← abs_of_pos hpow, ← abs_mul, abs_of_pos hpow, sub_mul, hscaled, ← Nat.cast_mul,
      ← Nat.mul_assoc] at hmul
    apply @lt_of_near_multiple (n * 10 ^ c)
    · intro heq
      apply hwhole n hn
      apply mul_right_cancel₀ hpow.ne'
      rw [hscaled, ← heq, ← Nat.cast_mul, Nat.mul_assoc]
    · exact_mod_cast hmul
  · obtain ⟨b, rfl⟩ := Int.eq_ofNat_of_zero_le hscale
    have hcast : (significand * 10 ^ (b : Int) : ℚ) = (significand * 10 ^ b : Nat) := by
      push_cast
      rw [zpow_natCast]
    rw [hcast] at hnear hwhole
    by_contra hle
    have hlarge : exactLimit < significand * 10 ^ b := by
      by_contra hsmall
      exact hwhole _ (by omega) rfl
    -- there is a power of ten, so the number is a multiple of ten, too
    have hb : b ≠ 0 := by
      intro hzero
      rw [hzero, Nat.pow_zero, Nat.mul_one] at hlarge
      exact hle hlarge
    obtain ⟨c, rfl⟩ := Nat.exists_eq_succ_of_ne_zero hb
    rw [Nat.pow_succ, ← Nat.mul_assoc] at hnear hlarge
    have hmultiple := @multiple_le_of_near n (significand * 10 ^ c) hn (by exact_mod_cast hnear)
    omega

theorem exists_toInt_eq {m : Int} (h : |(m : ℚ)| ≤ exactLimit) : ∃ n : Int64, n.toInt = m := by
  have hint : |m| ≤ exactLimit := by exact_mod_cast h
  have hrange := abs_le.1 hint
  unfold exactLimit at hrange
  refine ⟨Int64.ofInt m, Int64.toInt_ofInt_of_le ?_ ?_⟩
  · omega
  · omega

/-- A literal that is not written as an integer and stands for another one than it denotes has more
digits than the exact range, or stands for zero. -/
theorem eq_or_of_ofNumeral_eq {m : Int} (hm : |(m : ℚ)| ≤ exactLimit)
    (heq : (ofNumeral literal).value = m) :
    literal.value = m ∨
      exactLimit < literal.significand ∧ exactLimit * |literal.value - m| ≤ |(m : ℚ)| ∨
      m = 0 ∧ 2 * unitsPerOne * |literal.value| ≤ 1 := by
  have hrounds := roundsTo_ofNumeral literal
  have hfinite := isFinite_of_abs_value_le hrounds.isNaN_eq (heq ▸ hm)
  by_cases hplace : binade ≤ (ofNumeral literal).place
  · have herror := abs_value_ofNumeral_sub_le hfinite hplace
    have hmagnitudes := abs_value_ofNumeral_sub literal
    have hnat : |(m : ℚ)| = (m.natAbs : ℚ) := by rw [Nat.cast_natAbs, Int.cast_abs]
    by_cases hdenotes : literal.value = m
    · exact .inl hdenotes
    right
    left
    rw [← exactLimit_cast, heq] at herror
    refine ⟨?_, by rwa [abs_sub_comm]⟩
    apply @lt_significand m.natAbs literal.significand literal.scale
    · rw [hnat] at hm
      exact_mod_cast hm
    · rwa [← hnat, ← literal.abs_value, ← heq, ← hmagnitudes, heq]
    · intro whole hwhole hvalue
      rw [← literal.abs_value] at hvalue
      -- a literal in the exact range that denotes a whole number is read exactly
      obtain ⟨y, hy, hexact⟩ := exists_value_eq (exactLimit_eq ▸ hwhole) hvalue
      exact hdenotes ((hrounds.value_eq hy hexact).symm.trans heq)
  · right
    right
    have hzero := eq_zero_of_place_lt (not_le.1 hplace) heq
    have herror := two_mul_unitsPerOne_mul_abs_sub_le hfinite (not_le.1 hplace)
    rw [heq, hzero, Int.cast_zero, zero_sub, abs_neg] at herror
    exact ⟨hzero, herror⟩

/-- Which integers a decimal literal stands for, in a comparison and as an identifier. What is written
as an integer stands for this integer alone. Every other literal stands for the integer that the
double nearest to it holds, a tie going to the even one, as long as that lies in the exact range.

So a literal stands for no other integer than the one that it denotes exactly when it is written as an
integer or rounding does not move it onto an integer of the exact range. It is moved by one part in
`2 ^ 53` at most, and only where its digits, read as one number, are more than `2 ^ 53`; or it is so
small that it becomes zero. -/
theorem selects_numeral (hscan : Numeral.scan? (WhiteSpace.trim text.toList) = some literal)
    (hdecimal : literal.isDecimal) :
    (∀ n : Int64, (Value.string text).agrees (.int64 n) = true ↔ Selects text n) ∧
    (∀ id : Nat, coerceId (.string text) = some id ↔
      0 < id ∧ id ≤ maxId ∧ Selects text (Int64.ofNat id)) ∧
    (∀ n : Int64, Selects text n ↔
      if literal.isInteger then literal.value = n.toInt
      else |(n.toInt : ℚ)| ≤ exactLimit ∧ ∃ x, RoundsTo literal.value x ∧ x.value = n.toInt) ∧
    ((∀ n : Int64, Selects text n → literal.value = n.toInt) ↔
      literal.isInteger ∨ ∀ (x : Binary64) (m : Int), RoundsTo literal.value x → x.value = m →
        |(m : ℚ)| ≤ exactLimit → literal.value = m) ∧
    (∀ n : Int64, Selects text n → literal.value = n.toInt ∨
      exactLimit < literal.significand ∧
        exactLimit * |literal.value - n.toInt| ≤ |(n.toInt : ℚ)| ∨
      n = 0 ∧ 2 * unitsPerOne * |literal.value| ≤ 1) := by
  have hrounds := roundsTo_ofNumeral literal
  have hselects (n : Int64) : Selects text n ↔
      if literal.isInteger then literal.value = n.toInt
      else |(n.toInt : ℚ)| ≤ exactLimit ∧ ∃ x, RoundsTo literal.value x ∧ x.value = n.toInt := by
    split
    · next hinteger => exact selects_of_isInteger hscan hdecimal hinteger
    · next hinteger =>
      rw [selects_of_not_isInteger hscan hdecimal hinteger, and_congr_right_iff]
      intro hrange
      constructor
      · intro hvalue
        exact ⟨_, hrounds, hvalue⟩
      · intro hheld
        obtain ⟨x, hx, hvalue⟩ := hheld
        rw [hrounds.unique hx, hvalue]
  refine ⟨fun n => selects_iff_agrees.symm, fun id => coerceId_string_iff, hselects, ?_, ?_⟩
  · constructor
    · intro hclaim
      by_cases hinteger : literal.isInteger
      · exact .inl hinteger
      right
      intro x m hx hvalue hm
      obtain ⟨n, rfl⟩ := exists_toInt_eq hm
      apply hclaim
      rw [hselects, if_neg hinteger]
      exact ⟨hm, x, hx, hvalue⟩
    · intro hsafe n hn
      rw [hselects] at hn
      split at hn
      · exact hn
      · next hinteger =>
        obtain ⟨hrange, x, hx, hvalue⟩ := hn
        exact hsafe.resolve_left hinteger x n.toInt hx hvalue hrange
  · intro n hn
    by_cases hinteger : literal.isInteger
    · exact .inl ((selects_of_isInteger hscan hdecimal hinteger).1 hn)
    · rw [selects_of_not_isInteger hscan hdecimal hinteger] at hn
      have hcases := eq_or_of_ofNumeral_eq hn.1 hn.2
      rwa [← Int64.toInt_zero, Int64.toInt_inj] at hcases

/-- A literal with a fraction, an exponent and few digits, which stands for fifteen and for nothing
else. -/
theorem selects_numeral_fifteen : Selects " +1.50e1\n" 15 ∧
    ∀ n : Int64, Selects " +1.50e1\n" n → n = 15 := by
  have hscan : Numeral.scan? (WhiteSpace.trim " +1.50e1\n".toList) =
      some ⟨some .plus, ['1'], some ['5', '0'], some 1⟩ := by
    decide +kernel
  obtain ⟨-, -, -, -, hnear⟩ := selects_numeral hscan rfl
  have hvalue : Numeral.value ⟨some .plus, ['1'], some ['5', '0'], some 1⟩ = 15 := by
    show ((150 : Nat) * 10 ^ (-1 : Int) : ℚ) = 15
    norm_num
  refine ⟨by unfold Selects; decide +kernel, fun n hn => ?_⟩
  rcases hnear n hn with hdenoted | hlong | hsmall
  · rw [hvalue] at hdenoted
    apply Int64.toInt_inj.1
    exact_mod_cast hdenoted.symm
  · exact absurd hlong.1 (by decide)
  · have hone : (1 : ℚ) ≤ unitsPerOne := Nat.one_le_cast.2 unitsPerOne_pos
    rw [hvalue, abs_of_pos (by norm_num)] at hsmall
    linarith [hsmall.2]

/-- Behind the exact range a fraction is rounded onto an integer, for which the text then stands. -/
theorem selects_rounded_fraction : ∃ literal : Numeral,
    Numeral.scan? (WhiteSpace.trim "9007199254740992.5".toList) = some literal ∧
    literal.isDecimal ∧ literal.value = 9007199254740992 + 1 / 2 ∧
    Selects "9007199254740992.5" 9007199254740992 ∧
    coerceId (.string "9007199254740992.5") = some 9007199254740992 := by
  refine ⟨⟨none, "9007199254740992".toList, some ['5'], none⟩, by decide +kernel, rfl, ?_,
    by unfold Selects; decide +kernel, by decide +kernel⟩
  show ((90071992547409925 : Nat) * 10 ^ (-1 : Int) : ℚ) = 9007199254740992 + 1 / 2
  norm_num

end DocumentStore.Number
