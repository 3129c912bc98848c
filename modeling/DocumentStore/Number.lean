import DocumentStore.Binary64.Rounding
import DocumentStore.Text.WhiteSpace
import DocumentStore.Value.Basic

/-!
# Numbers, read loosely

A number comes out of a value of any numeric kind, or out of a text. Integers keep their exact
value, and all comparison is by exact value: an integer and a double are equal only when the
double holds that very integer.

A text is read as an integer where it can be. Any other notation is read as a double and accepted
only up to `2 ^ 53`, the bound below which every integer has a double of its own: beyond it a
rounded reading could be equal to another integer than the one that is written.
-/

namespace DocumentStore

/-- A number of either sort. -/
inductive Number where
  | int (n : Int64)
  | float (x : Binary64)
  deriving DecidableEq, Repr

namespace Number

/-- The largest magnitude that is accepted from a text not written as an integer: `2 ^ 53`. -/
def exactLimit : Nat := 0x20000000000000

/-- The number that a value of a numeric kind holds. -/
def ofValue? : Value → Option Number
  | .int32 n => some (int n.toInt64)
  | .int64 n => some (int n)
  | .double x => some (float x)
  | _ => none

/-- Whether an integer fits into sixty-four bits. -/
def fits (n : Int) : Bool := Int64.minValue.toInt ≤ n && n ≤ Int64.maxValue.toInt

/-- The integer that a text writes, where it fits. -/
def readInt? (text : List Char) : Option Number :=
  ((Numeral.readInt? text).filter fits).map fun n => int (Int64.ofInt n)

/-- The double nearest to what a text writes, where it lies within `exactLimit`. -/
def readFloat? (text : List Char) : Option Number :=
  ((Binary64.read? text).filter fun x =>
    x.isFinite && x.units ≤ exactLimit * Binary64.unitsPerOne).map float

/-- The number that a text writes, blanks around it aside. -/
def parse (text : String) : Option Number :=
  let trimmed := WhiteSpace.trim text.toList
  (readInt? trimmed).or (readFloat? trimmed)

/-- The integer that the number holds exactly, where it fits into sixty-four bits. -/
def asInt? : Number → Option Int64
  | int n => some n
  | float x => (x.toInt?.filter fits).map Int64.ofInt

/-- Equality of exact values; a NaN equals nothing. -/
def equal : Number → Number → Bool
  | int m, int n => m == n
  | float x, float y => x.equal y
  | int n, float x => asInt? (float x) == some n
  | float x, int n => asInt? (float x) == some n

/-- Whether two readings are the same: both fail, or both find numbers and these are equal. -/
def sameReading : Option Number → Option Number → Bool
  | some m, some n => m.equal n
  | none, none => true
  | _, _ => false

end Number

end DocumentStore
