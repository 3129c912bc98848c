/-!
# Double-precision numbers

A `Binary64` is a double-precision number given by its bits. The finite magnitudes lie on one
grid: with the sign bit cleared, the bits of a number count its place on it, and `gridUnits` is
the value of that place as a whole number of units of `2 ^ -1074`, the smallest positive
magnitude. So values are compared and rounded as natural numbers, without a step of inexact
arithmetic.

* `Binary64.equal` is the comparison of the standard: a NaN equals nothing, the two zeros are equal;
* `Binary64.toInt?` is the integer that a number holds exactly, if it holds one.
-/

namespace DocumentStore

/-- A double-precision number: a sign bit, eleven bits of exponent and fifty-two of fraction. -/
structure Binary64 where
  bits : UInt64
  deriving DecidableEq, Repr

namespace Binary64

/-- The bit that holds the sign, as a number: `2 ^ 63`. -/
def signBit : Nat := 0x8000000000000000

/-- How many places have the same spacing: `2 ^ 52`, one for each fraction. -/
def binade : Nat := 0x0010000000000000

/-- The place of infinity on the grid of magnitudes. -/
def infinityPlace : Nat := 2047 * binade

/-- How many units of the smallest magnitude make one: `2 ^ 1074`. -/
def unitsPerOne : Nat := 1 <<< 1074

/-- The magnitude at a place of the grid, in units of the smallest one. The first two binades are
evenly spaced, and then the spacing doubles from each to the next. -/
def gridUnits (place : Nat) : Nat :=
  if place / binade = 0 then place
  else (binade + place % binade) <<< (place / binade - 1)

/-- Whether the sign bit is set. -/
def negative (x : Binary64) : Bool := signBit ≤ x.bits.toNat

/-- The place of the magnitude on the grid: the bits without the sign. -/
def place (x : Binary64) : Nat := x.bits.toNat % signBit

/-- Whether the bits stand for no number at all. -/
def isNaN (x : Binary64) : Bool := infinityPlace < x.place

/-- Whether the bits stand for a finite number. -/
def isFinite (x : Binary64) : Bool := x.place < infinityPlace

/-- The magnitude of a finite number, in units of the smallest one. -/
def units (x : Binary64) : Nat := gridUnits x.place

/-- The number with a given sign at a given place of the grid. -/
def ofPlace (negative : Bool) (place : Nat) : Binary64 :=
  ⟨UInt64.ofNat (if negative then signBit + place else place)⟩

/-- The one NaN that this library makes. -/
def nan : Binary64 := ⟨0x7FF8000000000000⟩

/-- Comparison of the standard: NaN equals nothing and the two zeros are equal. -/
def equal (x y : Binary64) : Bool :=
  !x.isNaN && !y.isNaN && (x.bits == y.bits || (x.place == 0 && y.place == 0))

/-- The integer that the number holds exactly, if it holds one. -/
def toInt? (x : Binary64) : Option Int :=
  if x.isFinite && x.units % unitsPerOne == 0 then
    let whole : Int := (x.units / unitsPerOne : Nat)
    some (if x.negative then -whole else whole)
  else none

end Binary64

end DocumentStore
