import DocumentStore.Binary64.Rounding

/-!
# The shortest decimal text of a double

A finite double is written with the fewest digits that read back as the same double; of those the
nearest to its value is taken, and an exact tie goes up. The digits are always written in place,
never with an exponent.

All arithmetic is on natural numbers: in steps of `10 ^ -1074` every double is whole, since
`2 ^ -1074` is `5 ^ 1074` such steps.
-/

namespace DocumentStore

namespace Binary64

/-- How many steps of `10 ^ -1074` make one. -/
def stepsPerOne : Nat := Nat.pow 10 1074

/-- The magnitude at a place of the grid in steps of `10 ^ -1074`. -/
def gridSteps (place : Nat) : Nat := gridUnits place * Nat.pow 5 1074

/-- Whether a magnitude, in steps, reads back as the given place: it lies between the midpoints to
the two neighbours, and on a midpoint only when the place is even. -/
def readsBack (place steps : Nat) : Bool :=
  let low := gridSteps (place - 1) + gridSteps place
  let high := gridSteps place + gridSteps (place + 1)
  if place % 2 = 0 then low ≤ 2 * steps && 2 * steps ≤ high
  else low < 2 * steps && 2 * steps < high

/-- Of the two multiples of `grain` around the value, the one that reads back: the nearer of two,
the upper one on a tie. -/
def nearestReadingBack? (place grain : Nat) : Option Nat :=
  let steps := gridSteps place
  let below := steps / grain * grain
  let above := below + grain
  match readsBack place below, readsBack place above with
  | true, true => some (if steps - below < above - steps then below else above)
  | true, false => some below
  | false, true => some above
  | false, false => none

/-- The shortest magnitude, in steps, that reads back as the given place. -/
def shortestSteps (place : Nat) : Nat :=
  let steps := gridSteps place
  let length := (Nat.toDigits 10 steps).length
  let candidates := (List.range 17).filterMap fun digits =>
    if digits < length then nearestReadingBack? place (Nat.pow 10 (length - 1 - digits)) else none
  candidates.headD steps

/-- A number of steps of `10 ^ -1074`, written out without an exponent. -/
def stepsText (steps : Nat) : String :=
  let whole := Nat.repr (steps / stepsPerOne)
  let tail := Nat.toDigits 10 (stepsPerOne + steps % stepsPerOne)
  let fraction := ((tail.drop 1).reverse.dropWhile (· = '0')).reverse
  if fraction.isEmpty then whole else whole ++ "." ++ String.ofList fraction

/-- The text of a double. -/
def text (x : Binary64) : String :=
  if x.isNaN then "NaN"
  else
    let sign := if x.negative then "-" else ""
    sign ++ if x.isFinite then stepsText (shortestSteps x.place) else "inf"

end Binary64

end DocumentStore
