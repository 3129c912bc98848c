/-!
# Numerals

A numeral is a number as it is written: a sign, digits, a fraction and an exponent, each of them
optional until a rule of some format asks for it. `Numeral.scan?` splits a text into these parts
and accepts it only when they use it up; which parts must be present is for the format to say.
Digits are the ASCII digits alone.
-/

namespace DocumentStore

/-- A written sign. -/
inductive Sign where
  | plus
  | minus
  deriving DecidableEq, Repr

/-- The parts of a written number. -/
structure Numeral where
  /-- The sign in front, if one is written. -/
  sign : Option Sign
  /-- The digits before the point. -/
  whole : List Char
  /-- The digits after the point, if there is a point. -/
  fraction : Option (List Char)
  /-- The power of ten behind the exponent mark, if there is a mark. -/
  exponent : Option Int
  deriving DecidableEq, Repr

namespace Numeral

/-- The number that a row of decimal digits writes. -/
def digitsValue (digits : List Char) : Nat :=
  digits.foldl (fun n c => 10 * n + (c.toNat - 48)) 0

/-- The sign at the head of a text, and the text behind it. -/
def takeSign : List Char → Option Sign × List Char
  | '+' :: rest => (some .plus, rest)
  | '-' :: rest => (some .minus, rest)
  | text => (none, text)

/-- The digits behind a point at the head of a text, and the text behind them. -/
def takeFraction : List Char → Option (List Char) × List Char
  | '.' :: rest => (some (rest.takeWhile Char.isDigit), rest.dropWhile Char.isDigit)
  | text => (none, text)

/-- Reads a signed row of digits that uses up the text. -/
def readExponent? (text : List Char) : Option Int :=
  let (sign, digits) := takeSign text
  if digits.isEmpty || !digits.all Char.isDigit then none
  else if sign = some .minus then some (-(digitsValue digits : Int))
  else some (digitsValue digits)

/-- Splits a text into the parts of a numeral; the parts have to use it up. -/
def scan? (text : List Char) : Option Numeral :=
  let (sign, unsigned) := takeSign text
  let whole := unsigned.takeWhile Char.isDigit
  let (fraction, rest) := takeFraction (unsigned.dropWhile Char.isDigit)
  match rest with
  | [] => some ⟨sign, whole, fraction, none⟩
  | mark :: power =>
    if mark = 'e' ∨ mark = 'E' then
      (readExponent? power).map fun exponent => ⟨sign, whole, fraction, some exponent⟩
    else none

/-- Whether a minus sign is written in front. -/
def negative (n : Numeral) : Bool := n.sign = some .minus

/-- All digits of the numeral, as if there were no point. -/
def digits (n : Numeral) : List Char := n.whole ++ n.fraction.getD []

/-- The digits read as one number. -/
def significand (n : Numeral) : Nat := digitsValue n.digits

/-- The power of ten by which `significand` is scaled. -/
def scale (n : Numeral) : Int := n.exponent.getD 0 - (n.fraction.getD []).length

/-- A decimal literal has a digit before or after the point. -/
def isDecimal (n : Numeral) : Bool := !n.digits.isEmpty

/-- An integer literal has digits and neither a point nor an exponent. -/
def isInteger (n : Numeral) : Bool :=
  !n.whole.isEmpty && n.fraction.isNone && n.exponent.isNone

/-- The value of an integer literal. -/
def toInt (n : Numeral) : Int :=
  if n.negative then -(digitsValue n.whole : Int) else digitsValue n.whole

/-- The integer that a text writes, if it is an integer literal. -/
def readInt? (text : List Char) : Option Int :=
  ((scan? text).filter isInteger).map toInt

example : readInt? "+007".toList = some 7 := by decide
example : readInt? "-".toList = none := by decide
example : readInt? "1.0".toList = none := by decide
example : (scan? "1.".toList).map scale = some 0 := by decide
example : (scan? ".5E-3".toList).map scale = some (-4) := by decide
example : scan? "1e".toList = none := by decide

end Numeral

end DocumentStore
