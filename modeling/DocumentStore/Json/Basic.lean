import DocumentStore.Binary64.Rounding
import DocumentStore.Fields

/-!
# JSON values

A JSON number is an integer where it is written as one and lies between `-2 ^ 63` and `2 ^ 64`; it
is a double otherwise. The members of an object stand in ascending order of their names.
-/

namespace DocumentStore

/-- A JSON value. -/
inductive Json where
  | null
  | boolean (b : Bool)
  | integer (n : Int)
  | double (x : Binary64)
  | string (text : String)
  | array (items : List Json)
  | object (members : List (String × Json))
  deriving Inhabited

namespace Json

/-- The object with the given members; of a repeated name the last member counts. -/
def ofMembers (members : List (String × Json)) : Json :=
  object (members.foldl (fun acc member => Fields.insertSorted acc member.1 member.2) [])

/-- Whether an integer can be held as one. -/
def holdsInteger (n : Int) : Bool := Int64.minValue.toInt ≤ n && n < UInt64.size

/-- The number that a numeral writes. The grammar of JSON is stricter than that of a numeral: no
plus sign, no zero in front of other digits, and digits on both sides of a point. Minus zero is a
double, which keeps its sign, and a number beyond all doubles is no number.

It is assumed that the double is the one nearest to what is written. A reader of texts that trades the
last place for speed may give one of its neighbours instead. -/
def ofNumeral? (numeral : Numeral) : Option Json :=
  if numeral.sign = some .plus ∨ numeral.whole = [] ∨ numeral.fraction = some [] ∨
      (numeral.whole.head? = some '0' ∧ numeral.whole.length ≠ 1) then none
  else if numeral.isInteger && holdsInteger numeral.toInt &&
      !(numeral.negative && numeral.toInt == 0) then some (integer numeral.toInt)
  else
    let x := Binary64.ofNumeral numeral
    if x.isFinite then some (double x) else none

end Json

end DocumentStore
