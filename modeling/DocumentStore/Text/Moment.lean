import DocumentStore.Text.Numeral

/-!
# Moments as text

A moment is written as a day, a time of day and how far the clock is ahead of universal time, as in
`2020-02-29T12:00:00.5+01:00`, and is read as milliseconds since the start of 1970. Any character of
one byte may stand between the day and the time. Only the last minute of a month, in universal time,
has a sixtieth second, which is read as the last nanosecond before the next month.
-/

namespace DocumentStore.Moment

/-! ## The calendar -/

/-- Whether a year has a day more than others. -/
def isLeap (year : Nat) : Bool := year % 4 == 0 && (year % 100 != 0 || year % 400 == 0)

/-- The number of days of a month. -/
def monthLength (year : Nat) : Nat → Nat
  | 2 => if isLeap year then 29 else 28
  | 4 | 6 | 9 | 11 => 30
  | _ => 31

/-- The days before a year, from the start of the year zero, which is a leap year. -/
def daysBefore (year : Nat) : Nat :=
  365 * year + (year + 3) / 4 - (year + 99) / 100 + (year + 399) / 400

/-- The first day of a month, counted from the start of 1970. -/
def firstDay (year month : Nat) : Int :=
  (List.range (month - 1)).foldl (fun days earlier => days + monthLength year (earlier + 1))
    ((daysBefore year : Int) - 719528)

/-- A year has as many days as its leap day says. -/
theorem daysBefore_succ (year : Nat) :
    daysBefore (year + 1) = daysBefore year + if isLeap year then 366 else 365 := by
  have h4 : (year + 1 + 3) / 4 = (year + 3) / 4 + if year % 4 = 0 then 1 else 0 := by
    split <;> omega
  have h100 : (year + 1 + 99) / 100 = (year + 99) / 100 + if year % 100 = 0 then 1 else 0 := by
    split <;> omega
  have h400 : (year + 1 + 399) / 400 = (year + 399) / 400 + if year % 400 = 0 then 1 else 0 := by
    split <;> omega
  have hle : (year + 99) / 100 ≤ 365 * year + (year + 3) / 4 := by omega
  simp only [daysBefore, h4, h100, h400, isLeap, Bool.and_eq_true, Bool.or_eq_true, beq_iff_eq,
    bne_iff_ne]
  -- What is left depends on the rests of the year alone, once the quotients are names.
  generalize (year + 3) / 4 = fourths, (year + 99) / 100 = centuries at hle ⊢
  by_cases hfour : year % 4 = 0
  · by_cases hcentury : year % 100 = 0
    · by_cases hquad : year % 400 = 0 <;> simp [hfour, hcentury, hquad] <;> omega
    · have hquad : year % 400 ≠ 0 := by omega
      simp [hfour, hcentury, hquad]
      omega
  · have hcentury : year % 100 ≠ 0 := by omega
    have hquad : year % 400 ≠ 0 := by omega
    simp [hfour, hcentury, hquad]
    omega

/-- The months of a year fill it up, so that the thirteenth is the first of the next year. -/
theorem firstDay_thirteen (year : Nat) : firstDay year 13 = firstDay (year + 1) 1 := by
  have hyear : firstDay year 13 = firstDay year 1 + if isLeap year then 366 else 365 := by
    have hmonths : List.range 12 = [0, 1, 2, 3, 4, 5, 6, 7, 8, 9, 10, 11] := rfl
    simp only [firstDay, Nat.reduceSub, hmonths, List.range_zero, List.foldl_cons, List.foldl_nil,
      Nat.reduceAdd, monthLength]
    split <;> omega
  rw [hyear]
  show (daysBefore year : Int) - 719528 + _ = (daysBefore (year + 1) : Int) - 719528
  rw [daysBefore_succ]
  split <;> omega

/-! ## The parts of a text -/

/-- Reads a part at the head of a text and leaves the text behind it. -/
abbrev Reading := StateT (List Char) Option

/-- The number that so many digits write. -/
def number (count : Nat) : Reading Nat := fun text =>
  let digits := text.take count
  if digits.length = count ∧ digits.all Char.isDigit then
    some (Numeral.digitsValue digits, text.drop count)
  else none

/-- One character for which a test holds. -/
def mark (accepts : Char → Bool) : Reading Unit := fun text =>
  match text with
  | [] => none
  | c :: rest => if accepts c then some ((), rest) else none

/-- The year, the month and the day of a day that there is. -/
def day : Reading (Nat × Nat × Nat) := do
  let year ← number 4
  mark (· = '-')
  let month ← number 2
  mark (· = '-')
  let day ← number 2
  guard (1 ≤ month ∧ month ≤ 12 ∧ 1 ≤ day ∧ day ≤ monthLength year month)
  return (year, month, day)

/-- Hours and minutes, in seconds. -/
def hoursMinutes : Reading Nat := do
  let hours ← number 2
  mark (· = ':')
  let minutes ← number 2
  guard (hours < 24 ∧ minutes < 60)
  return 3600 * hours + 60 * minutes

/-- The nanoseconds behind a point, none where there is no point. Digits behind the ninth do not
count. -/
def nanoseconds : Reading Nat := fun text =>
  match Numeral.takeFraction text with
  | (none, rest) => some (0, rest)
  | (some [], _) => none
  | (some digits, rest) =>
    some (Numeral.digitsValue ((digits ++ List.replicate 9 '0').take 9), rest)

/-- How far a clock is ahead of universal time, in seconds. -/
def offset : Reading Int := fun text =>
  match Numeral.takeSign text with
  | (some .plus, rest) => (hoursMinutes rest).map fun (seconds, rest) => (seconds, rest)
  | (some .minus, rest) => (hoursMinutes rest).map fun (seconds, rest) => (-seconds, rest)
  | (none, 'Z' :: rest) => some (0, rest)
  | (none, 'z' :: rest) => some (0, rest)
  | (none, _) => none

/-! ## Moments -/

/-- A moment, in milliseconds since the start of 1970, rounded towards this start. -/
def moment : Reading Int := do
  let (year, month, day) ← day
  mark fun c => c.toNat < 128
  let minute ← hoursMinutes
  mark (· = ':')
  let second ← number 2
  let nanos ← nanoseconds
  let ahead ← offset
  let start := 86400 * (firstDay year month + day - 1) + minute - ahead
  if second < 60 then return (1000000000 * (start + second) + nanos).tdiv 1000000
  else
    -- Universal time may be in the month before the written one, but in no earlier one.
    let next := start + 60
    guard (second = 60 ∧
      (next = 86400 * firstDay year month ∨ next = 86400 * firstDay year (month + 1)))
    return (1000000000 * next - 1).tdiv 1000000

/-- The moment that a text writes; it has to use the text up. -/
def read? (text : List Char) : Option Int :=
  match moment text with
  | some (millis, []) => some millis
  | _ => none

example : read? "2020-02-29T12:00:00.5+01:00".toList = some 1582974000500 := by decide
example : read? "2021-02-29 12:00:00Z".toList = none := by decide
example : read? "2017-01-01T00:59:60+01:00".toList = some 1483228799999 := by decide

end DocumentStore.Moment
