import DocumentStore.Binary64.Basic
import DocumentStore.Text.Numeral

/-!
# Rounding to double precision

A quotient of natural numbers is rounded to the nearest place of the grid, and a value halfway
between two places goes to the even one. Decimal literals are rounded so, in one step from their
exact value, whatever the number of their digits.

* `Binary64.roundQuotient` is the rule on quotients;
* `Binary64.ofNumeral` applies it to a decimal literal;
* `Binary64.read?` reads a text: a decimal literal, an infinity or a NaN.
-/

namespace DocumentStore

namespace Binary64

/-- The whole number nearest to a quotient; a half goes to the even neighbour. -/
def halfEven (num den : Nat) : Nat :=
  let quotient := num / den
  let rest := num % den
  if 2 * rest < den then quotient
  else if den < 2 * rest then quotient + 1
  else quotient + quotient % 2

/-- The place of the grid nearest to `num / den`, where infinity stands for all that lies beyond.
With `k` doublings of the spacing below the value, the places near it are `2 ^ k` units apart. -/
def roundQuotient (num den : Nat) : Nat :=
  let k := (num * unitsPerOne / den).log2 - 52
  min infinityPlace (k * binade + halfEven (num * unitsPerOne) (den <<< k))

/-- The place nearest to `significand * 10 ^ scale`. The two outer cases need no arithmetic: from
`10 ^ 401` on all is infinite, and below `10 ^ -400` all is zero. -/
def roundDecimal (significand : Nat) (scale : Int) : Nat :=
  if significand = 0 then 0
  else if 400 < scale then infinityPlace
  else if (significand.log2 + 1 : Nat) + scale < -400 then 0
  else if 0 ≤ scale then roundQuotient (significand * Nat.pow 10 scale.toNat) 1
  else roundQuotient significand (Nat.pow 10 (-scale).toNat)

/-- The number nearest to the value of a decimal literal. -/
def ofNumeral (n : Numeral) : Binary64 :=
  ofPlace n.negative (roundDecimal n.significand n.scale)

/-- Reads the words for infinity and NaN, in any mix of cases. -/
def readWord? (negative : Bool) (text : List Char) : Option Binary64 :=
  let word := String.ofList (text.map Char.toLower)
  if word = "inf" ∨ word = "infinity" then some (ofPlace negative infinityPlace)
  else if word = "nan" then some nan
  else none

/-- Reads a text that is a decimal literal, an infinity or a NaN, with or without a sign. -/
def read? (text : List Char) : Option Binary64 :=
  match (Numeral.scan? text).filter Numeral.isDecimal with
  | some numeral => some (ofNumeral numeral)
  | none =>
    let (sign, word) := Numeral.takeSign text
    readWord? (sign = some .minus) word

end Binary64

end DocumentStore
