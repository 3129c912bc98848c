import DocumentStore.Proofs.Number.Reading
import DocumentStore.Proofs.Text.Numeral

/-!
# Every spelling of an integer

An integer can be written in many ways, with zeros, signs, fractions and exponents, and with white
space around it. All of them are read as the integer, in the range in which doubles are exact; those
that are written as integers, in the whole range of sixty-four bits.

* `selects_of_spells`: a text stands for the integer that it denotes;
* `parse_spelled` says what is read from it, and which identifier it is.
-/

namespace DocumentStore.Number

open Binary64 Numeral

variable {s : Spelling} {text : String}

theorem scan?_trim (h : s.Spells text) :
    scan? (WhiteSpace.trim text.toList) = some s.numeral := by
  rw [s.trim_eq h, s.scan?_chars]

theorem fits_iff_bounds (n : Int) : fits n = true ↔ -2 ^ 63 ≤ n ∧ n < 2 ^ 63 := by
  unfold fits
  rw [Bool.and_eq_true, decide_eq_true_eq, decide_eq_true_eq, Int64.toInt_minValue,
    Int64.toInt_maxValue]
  omega

theorem toInt_ofInt {n : Int} (h : -2 ^ 63 ≤ n ∧ n < 2 ^ 63) : (Int64.ofInt n).toInt = n :=
  (fits_iff n).1 ((fits_iff_bounds n).2 h)

/-- A literal that denotes an integer of the exact range is not rounded, however it is written. -/
theorem value_ofNumeral_eq {n : Int} (hn : |(n : ℚ)| ≤ exactLimit) (hvalue : s.value = n) :
    (ofNumeral s.numeral).value = n := by
  have hnat : |(n : ℚ)| = n.natAbs := by rw [Nat.cast_natAbs, Int.cast_abs]
  have hle : n.natAbs ≤ 2 * binade := by
    rw [hnat, exactLimit_eq] at hn
    exact_mod_cast hn
  obtain ⟨x, hfinite, hx⟩ := exists_value_eq hle hnat
  have hdenotes : s.numeral.value = n := s.value_numeral.trans hvalue
  exact ((roundsTo_ofNumeral s.numeral).value_eq hfinite (hx.trans hdenotes.symm)).trans hdenotes

/-- A text stands for the integer that it denotes. -/
theorem selects_of_spells (h : s.Spells text) {n : Int64} (hvalue : s.value = n.toInt)
    (hrange : s.IsInteger ∨ |(n.toInt : ℚ)| ≤ exactLimit) : Selects text n := by
  have hscan := scan?_trim h
  by_cases hinteger : s.IsInteger
  · rw [selects_of_isInteger hscan s.numeral_isDecimal (s.numeral_isInteger.2 hinteger),
      s.value_numeral]
    exact hvalue
  · have hexact := hrange.resolve_left hinteger
    rw [selects_of_not_isInteger hscan s.numeral_isDecimal (mt s.numeral_isInteger.1 hinteger)]
    exact ⟨hexact, value_ofNumeral_eq hexact hvalue⟩

/-- Every spelling of an integer is recognised, whatever white space is around it. What is written as an
integer is read as exactly this integer where it fits into sixty-four bits, and as no number at all
otherwise. What is written in any other way, or in that one, and denotes an integer of magnitude at
most `2 ^ 53` is read as a number that is equal to it. And a text that denotes a positive integer in
one of these ranges is the identifier of this number. -/
theorem parse_spelled (h : s.Spells text) :
    (s.IsInteger → ∃ n : Int, s.value = n ∧ parse text =
      if -2 ^ 63 ≤ n ∧ n < 2 ^ 63 then some (int (Int64.ofInt n)) else none) ∧
    (∀ n : Int, s.value = n → |n| ≤ 2 ^ 53 →
      ∃ m, parse text = some m ∧ m.equal (int (Int64.ofInt n)) = true) ∧
    (∀ n : Nat, s.value = n → 0 < n → (s.IsInteger ∧ n < 2 ^ 63 ∨ n ≤ 2 ^ 53) →
      coerceId (.string text) = some n) := by
  have hlimit : (exactLimit : ℚ) = 2 ^ 53 := by
    rw [exactLimit_cast, binade_eq]
    norm_num
  refine ⟨fun hinteger => ?_, fun n hvalue hn => ?_, fun n hvalue hpos hrange => ?_⟩
  · have hliteral := s.numeral_isInteger.2 hinteger
    refine ⟨s.numeral.toInt, ?_, ?_⟩
    · rw [← s.value_numeral, value_of_isInteger hliteral]
    · rw [parse_of_isInteger (scan?_trim h) s.numeral_isDecimal hliteral]
      simp only [fits_iff_bounds]
  · have hbounds := abs_le.1 hn
    have hint := @toInt_ofInt n (by omega)
    have hselects : Selects text (Int64.ofInt n) := by
      apply selects_of_spells h
      · rw [hint, hvalue]
      · right
        rw [hint, hlimit]
        exact_mod_cast hn
    rw [selects_iff_asInt?, Option.bind_eq_some_iff] at hselects
    obtain ⟨m, hm, hheld⟩ := hselects
    refine ⟨m, hm, ?_⟩
    rw [equal_int, hheld, beq_self_eq_true]
  · have hle : n ≤ maxId := by
      unfold maxId
      omega
    have hint := toInt_ofNat_of_le hle
    rw [coerceId_string_iff]
    refine ⟨hpos, hle, selects_of_spells h ?_ ?_⟩
    · rw [hint, hvalue, Int.cast_natCast]
    · apply Or.imp And.left _ hrange
      intro hsmall
      rw [hint, hlimit, Int.cast_natCast, Nat.abs_cast]
      exact_mod_cast hsmall

/-- An identifier that is written with all that a spelling may have. -/
theorem parse_spelled_fraction : ∃ s : Spelling, s.Spells "\u00a0+0012.50E+01\u3000" ∧
    ¬ s.IsInteger ∧ s.value = (125 : Nat) ∧
    coerceId (.string "\u00a0+0012.50E+01\u3000") = some 125 := by
  have hexists : ∃ s : Spelling, s.chars = "+0012.50E+01".toList ∧ ¬ s.IsInteger ∧
      s.value = (125 : Nat) := by
    refine ⟨⟨some .plus, ['0', '0', '1', '2'], some ['5', '0'],
      some ⟨'E', some .plus, ['0', '1'], .inr rfl, by simp, by simp⟩,
      by simp, by simp, .inl (by simp)⟩, rfl, ?_, ?_⟩
    · intro hinteger
      exact nomatch hinteger.1
    · show (((12 : Nat) + (50 : Nat) / 10 ^ 2) * 10 ^ (1 : Int) : ℚ) = (125 : Nat)
      norm_num
  obtain ⟨s, hchars, hinteger, hvalue⟩ := hexists
  have hspells : s.Spells "\u00a0+0012.50E+01\u3000" := by
    refine ⟨['\u00a0'], ['\u3000'], ?_, List.forall_mem_singleton.2 (by decide),
      List.forall_mem_singleton.2 (by decide)⟩
    rw [hchars]
    rfl
  exact ⟨s, hspells, hinteger, hvalue,
    (parse_spelled hspells).2.2 125 hvalue (by decide) (.inr (by decide))⟩

end DocumentStore.Number
