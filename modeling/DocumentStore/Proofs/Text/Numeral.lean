import DocumentStore.Proofs.Binary64.Rounding
import DocumentStore.Text.WhiteSpace

/-!
# Decimal literals as they are written

A `Spelling` is a decimal literal with all that its writer may choose: a sign or none, any number of
digits with zeros in front of them and behind them, a point with digits on one side of it or on both,
and an exponent behind a mark in either case. Any white space may stand around it.

* `Spelling.chars` writes the literal and `Spelling.value` is the number that it denotes, digit by
  digit;
* `scan?_chars`: the parts of a literal are found as they were written, and `value_numeral`: the
  parts denote what the literal denotes;
* `Spelling.trim_eq`: the white space around a literal is taken off, and nothing else.
-/

namespace DocumentStore.Numeral

/-! ## Spellings -/

/-- A written exponent. -/
structure Power where
  /-- The mark in front of it. -/
  mark : Char
  sign : Option Sign
  digits : List Char
  isMark : mark = 'e' ∨ mark = 'E'
  areDigits : ∀ c ∈ digits, c.isDigit = true
  hasDigit : digits ≠ []

/-- A written decimal literal. -/
structure Spelling where
  sign : Option Sign
  /-- The digits in front of the point. -/
  whole : List Char
  /-- The digits behind the point, if there is a point. -/
  fraction : Option (List Char)
  power : Option Power
  wholeDigits : ∀ c ∈ whole, c.isDigit = true
  fractionDigits : ∀ c ∈ fraction.getD [], c.isDigit = true
  hasDigit : whole ≠ [] ∨ fraction.getD [] ≠ []

/-- How a sign is written. -/
def signChars : Option Sign → List Char
  | none => []
  | some .plus => ['+']
  | some .minus => ['-']

/-- How a fraction is written, with the point in front of it. -/
def fractionChars : Option (List Char) → List Char
  | none => []
  | some digits => '.' :: digits

/-- How an exponent is written, with the mark in front of it. -/
def powerChars : Option Power → List Char
  | none => []
  | some power => power.mark :: (signChars power.sign ++ power.digits)

/-- The power of ten that a written exponent denotes. -/
def Power.exponent (power : Power) : Int :=
  if power.sign = some .minus then -(digitsValue power.digits : Int) else digitsValue power.digits

namespace Spelling

/-- The literal as it is written. -/
def chars (s : Spelling) : List Char :=
  signChars s.sign ++ (s.whole ++ (fractionChars s.fraction ++ powerChars s.power))

/-- The power of ten by which the digits around the point are scaled. -/
def exponent (s : Spelling) : Int := (s.power.map Power.exponent).getD 0

/-- The number without its sign. -/
def magnitude (s : Spelling) : ℚ :=
  (digitsValue s.whole + digitsValue (s.fraction.getD []) / 10 ^ (s.fraction.getD []).length) *
    10 ^ s.exponent

/-- The number that the literal denotes. -/
def value (s : Spelling) : ℚ := if s.sign = some .minus then -s.magnitude else s.magnitude

/-- The literal is written as an integer: without a point and without an exponent. -/
def IsInteger (s : Spelling) : Prop := s.fraction = none ∧ s.power = none

/-- A text consists of the literal, with any white space around it. -/
def Spells (s : Spelling) (text : String) : Prop :=
  ∃ left right : List Char, text.toList = left ++ (s.chars ++ right) ∧
    (∀ c ∈ left, WhiteSpace.isBlank c = true) ∧ (∀ c ∈ right, WhiteSpace.isBlank c = true)

/-- The parts of the literal. -/
def numeral (s : Spelling) : Numeral := ⟨s.sign, s.whole, s.fraction, s.power.map Power.exponent⟩

end Spelling

/-! ## What the parts denote -/

theorem foldl_digits (digits : List Char) (n : Nat) :
    digits.foldl (fun n c => 10 * n + (c.toNat - 48)) n =
      n * 10 ^ digits.length + digitsValue digits := by
  unfold digitsValue
  induction digits generalizing n with
  | nil => simp
  | cons c rest ih =>
    rw [List.foldl_cons, List.foldl_cons, ih, ih (10 * 0 + _), List.length_cons, Nat.pow_succ]
    ring

/-- Digits in front of others count as many times more as there are powers of ten behind them. -/
theorem digitsValue_append (front back : List Char) :
    digitsValue (front ++ back) = digitsValue front * 10 ^ back.length + digitsValue back := by
  rw [digitsValue, List.foldl_append, foldl_digits]
  rfl

namespace Spelling

variable (s : Spelling)

theorem numeral_isInteger : s.numeral.isInteger = true ↔ s.IsInteger := by
  unfold IsInteger Numeral.isInteger numeral
  simp only [Bool.and_eq_true, Bool.not_eq_true', List.isEmpty_eq_false_iff,
    Option.isNone_iff_eq_none, Option.map_eq_none_iff]
  constructor
  · intro h
    exact ⟨h.1.2, h.2⟩
  · intro h
    -- without a point all digits stand in front of it
    have hwhole := s.hasDigit
    rw [h.1] at hwhole
    exact ⟨⟨hwhole.resolve_right (fun hnone => hnone rfl), h.1⟩, h.2⟩

theorem numeral_isDecimal : s.numeral.isDecimal = true := by
  have hdigit := s.hasDigit
  unfold isDecimal digits numeral
  simp only [Bool.not_eq_true', List.isEmpty_eq_false_iff, ne_eq, List.append_eq_nil_iff, not_and_or]
  exact hdigit

theorem value_numeral : s.numeral.value = s.value := by
  have hmagnitude : (s.numeral.significand * 10 ^ s.numeral.scale : ℚ) = s.magnitude := by
    have hten : (10 : ℚ) ≠ 0 := by norm_num
    show ((digitsValue (s.whole ++ s.fraction.getD []) : Nat) *
      10 ^ (s.exponent - (s.fraction.getD []).length) : ℚ) = s.magnitude
    rw [digitsValue_append, zpow_sub₀ hten, zpow_natCast, magnitude]
    push_cast
    field_simp
  unfold Numeral.value value negative
  rw [hmagnitude]
  simp only [decide_eq_true_eq]
  rfl

end Spelling

/-! ## Finding the parts -/

section

variable {inside : Char → Bool} {body rest : List Char}

/-- A row of characters of one sort, up to the first one of another sort. -/
theorem takeWhile_row (hbody : ∀ c ∈ body, inside c = true)
    (hrest : ∀ c, rest.head? = some c → inside c = false) :
    (body ++ rest).takeWhile inside = body ∧ (body ++ rest).dropWhile inside = rest := by
  rw [List.takeWhile_append_of_pos hbody, List.dropWhile_append_of_pos hbody]
  cases rest with
  | nil => exact ⟨List.append_nil body, rfl⟩
  | cons c tail =>
    have hc := hrest c rfl
    rw [List.takeWhile_cons_of_neg (by simp [hc]), List.dropWhile_cons_of_neg (by simp [hc])]
    exact ⟨List.append_nil body, rfl⟩

end

theorem takeSign_signChars (sign : Option Sign) {rest : List Char}
    (hrest : ∀ c, rest.head? = some c → c ≠ '+' ∧ c ≠ '-') :
    takeSign (signChars sign ++ rest) = (sign, rest) := by
  cases sign with
  | none =>
    show takeSign rest = _
    unfold takeSign
    split
    · exact absurd rfl (hrest _ rfl).1
    · exact absurd rfl (hrest _ rfl).2
    · rfl
  | some sign => cases sign <;> rfl

theorem head?_digits {digits : List Char} (hdigits : ∀ c ∈ digits, c.isDigit = true) (c : Char)
    (hc : digits.head? = some c) : c.isDigit = true :=
  hdigits c (List.mem_of_mem_head? hc)

/-- No exponent begins with a digit or a point. -/
theorem head?_powerChars (power : Option Power) (c : Char)
    (hc : (powerChars power).head? = some c) : c = 'e' ∨ c = 'E' := by
  cases power with
  | none => contradiction
  | some power =>
    obtain rfl : power.mark = c := Option.some.inj hc
    exact power.isMark

theorem takeFraction_fractionChars {fraction : Option (List Char)}
    (hdigits : ∀ c ∈ fraction.getD [], c.isDigit = true) (power : Option Power) :
    takeFraction (fractionChars fraction ++ powerChars power) = (fraction, powerChars power) := by
  have hhead := head?_powerChars power
  cases fraction with
  | none =>
    show takeFraction (powerChars power) = _
    unfold takeFraction
    split
    · next heq =>
      rw [heq] at hhead
      exact absurd (hhead _ rfl) (by decide)
    · rfl
  | some digits =>
    have hrow := takeWhile_row hdigits fun c hc => by
      rcases hhead c hc with rfl | rfl <;> rfl
    show (some (List.takeWhile Char.isDigit (digits ++ powerChars power)),
      List.dropWhile Char.isDigit (digits ++ powerChars power)) = _
    rw [Option.getD_some] at hrow
    rw [hrow.1, hrow.2]

/-- What begins with a digit or a point has no sign. -/
theorem ne_sign {c : Char} (h : c.isDigit = true ∨ c = '.') : c ≠ '+' ∧ c ≠ '-' := by
  constructor
  · intro hplus
    rw [hplus] at h
    exact absurd h (by decide)
  · intro hminus
    rw [hminus] at h
    exact absurd h (by decide)

theorem readExponent?_chars (power : Power) :
    readExponent? (signChars power.sign ++ power.digits) = some power.exponent := by
  have hsign := takeSign_signChars power.sign fun c hc =>
    ne_sign (.inl (head?_digits power.areDigits c hc))
  have hempty : power.digits.isEmpty = false := List.isEmpty_eq_false_iff.2 power.hasDigit
  have hall : power.digits.all Char.isDigit = true := List.all_eq_true.2 power.areDigits
  unfold readExponent? Power.exponent
  rw [hsign]
  dsimp only
  rw [hempty, hall]
  simp only [Bool.not_true, Bool.or_self, Bool.false_eq_true, if_false]
  split <;> rfl

namespace Spelling

variable (s : Spelling)

theorem head?_unsigned (c : Char)
    (hc : (s.whole ++ (fractionChars s.fraction ++ powerChars s.power)).head? = some c) :
    c.isDigit = true ∨ c = '.' := by
  by_cases hwhole : s.whole = []
  · -- then there are digits behind a point
    right
    obtain ⟨digits, hdigits⟩ : ∃ digits, s.fraction = some digits := by
      apply Option.ne_none_iff_exists'.1
      intro hnone
      have hdigit := s.hasDigit.resolve_left (fun h => h hwhole)
      rw [hnone] at hdigit
      exact hdigit rfl
    rw [hwhole, hdigits] at hc
    exact (Option.some.inj hc).symm
  · left
    rw [List.head?_append_of_ne_nil _ hwhole] at hc
    exact head?_digits s.wholeDigits c hc

/-- The parts of a literal are found as they were written. -/
theorem scan?_chars : scan? s.chars = some s.numeral := by
  have hfraction := takeFraction_fractionChars s.fractionDigits s.power
  -- what follows a part cannot be mistaken for more of it
  have hpoint (c : Char) (hc : (fractionChars s.fraction ++ powerChars s.power).head? = some c) :
      c.isDigit = false := by
    cases hf : s.fraction with
    | none =>
      rw [hf] at hc
      rcases head?_powerChars s.power c hc with rfl | rfl <;> rfl
    | some digits =>
      rw [hf] at hc
      obtain rfl : '.' = c := Option.some.inj hc
      rfl
  have hwhole := takeWhile_row s.wholeDigits hpoint
  have hsign := takeSign_signChars s.sign fun c hc => ne_sign (s.head?_unsigned c hc)
  unfold scan? chars
  rw [hsign]
  dsimp only
  rw [hwhole.1, hwhole.2, hfraction]
  dsimp only
  cases hp : s.power with
  | none => simp [powerChars, numeral, hp]
  | some power =>
    show (if power.mark = 'e' ∨ power.mark = 'E' then _ else none) = _
    rw [if_pos power.isMark, readExponent?_chars, numeral, hp]
    rfl

/-! ## White space -/

theorem isBlank_of_isDigit {c : Char} (h : c.isDigit = true) : WhiteSpace.isBlank c = false := by
  have hrange : 48 ≤ c.toNat ∧ c.toNat ≤ 57 := by
    simpa [Char.isDigit, UInt32.le_iff_toNat_le] using h
  rw [← Bool.not_eq_true]
  unfold WhiteSpace.isBlank WhiteSpace.ranges
  simp only [List.any_cons, List.any_nil, Bool.or_false, Bool.or_eq_true, Bool.and_eq_true,
    decide_eq_true_eq]
  omega

theorem isBlank_of_mem_signChars {sign : Option Sign} {c : Char} (hc : c ∈ signChars sign) :
    WhiteSpace.isBlank c = false := by
  rcases sign with _ | _ | _
  · contradiction
  · rw [List.mem_singleton.1 hc]
    rfl
  · rw [List.mem_singleton.1 hc]
    rfl

theorem isBlank_of_mem_fractionChars {c : Char} (hc : c ∈ fractionChars s.fraction) :
    WhiteSpace.isBlank c = false := by
  have hdigits := s.fractionDigits
  cases hf : s.fraction with
  | none =>
    rw [hf] at hc
    contradiction
  | some digits =>
    rw [hf] at hc hdigits
    rcases List.mem_cons.1 hc with rfl | hdigit
    · rfl
    · exact isBlank_of_isDigit (hdigits c hdigit)

theorem isBlank_of_mem_powerChars {power : Option Power} {c : Char} (hc : c ∈ powerChars power) :
    WhiteSpace.isBlank c = false := by
  cases power with
  | none => contradiction
  | some power =>
    rcases List.mem_cons.1 hc with rfl | hexponent
    · rcases power.isMark with hmark | hmark
      · rw [hmark]
        rfl
      · rw [hmark]
        rfl
    · rcases List.mem_append.1 hexponent with hsign | hdigit
      · exact isBlank_of_mem_signChars hsign
      · exact isBlank_of_isDigit (power.areDigits c hdigit)

theorem isBlank_of_mem_chars {c : Char} (hc : c ∈ s.chars) : WhiteSpace.isBlank c = false := by
  unfold chars at hc
  rw [List.mem_append, List.mem_append, List.mem_append] at hc
  rcases hc with hsign | hwhole | hfraction | hpower
  · exact isBlank_of_mem_signChars hsign
  · exact isBlank_of_isDigit (s.wholeDigits c hwhole)
  · exact s.isBlank_of_mem_fractionChars hfraction
  · exact isBlank_of_mem_powerChars hpower

theorem chars_ne_nil : s.chars ≠ [] := by
  intro hnil
  have hdigit := s.hasDigit
  unfold chars at hnil
  rw [List.append_eq_nil_iff, List.append_eq_nil_iff, List.append_eq_nil_iff] at hnil
  cases hf : s.fraction with
  | none => simp_all
  | some digits =>
    rw [hf] at hnil
    exact List.cons_ne_nil _ _ hnil.2.2.1

/-- The white space around a literal is taken off, and nothing else. -/
theorem trim_eq {text : String} (h : s.Spells text) :
    WhiteSpace.trim text.toList = s.chars := by
  obtain ⟨left, right, htext, hleft, hright⟩ := h
  have hfront (c : Char) (hc : (s.chars ++ right).head? = some c) :
      WhiteSpace.isBlank c = false := by
    rw [List.head?_append_of_ne_nil _ s.chars_ne_nil] at hc
    exact s.isBlank_of_mem_chars (List.mem_of_mem_head? hc)
  -- the white space behind the literal is taken off in front of the reversed text
  have hback (c : Char) (hc : s.chars.reverse.head? = some c) : WhiteSpace.isBlank c = false :=
    s.isBlank_of_mem_chars (List.mem_reverse.1 (List.mem_of_mem_head? hc))
  have hright_reverse (c : Char) (hc : c ∈ right.reverse) : WhiteSpace.isBlank c = true :=
    hright c (List.mem_reverse.1 hc)
  unfold WhiteSpace.trim
  rw [htext, (takeWhile_row hleft hfront).2, List.reverse_append,
    (takeWhile_row hright_reverse hback).2, List.reverse_reverse]

end Spelling

end DocumentStore.Numeral
