/-!
# The civil calendar

Dates of the proleptic Gregorian calendar against a count of days in which the first day of
1970 is day zero. `dayNumber` and `ofDayNumber` are the two directions; years may be negative.
-/

namespace Sarif

-- Sums of lists are those of the core library, wherever Mathlib is imported too.
attribute [local instance (2000)] Zero.ofOfNat0

/-- A day of the civil calendar. -/
structure Date where
  year : Int
  month : Nat
  day : Nat
  deriving DecidableEq, Repr

namespace Date

/-- Whether a year has a twenty-ninth of February. -/
def isLeapYear (year : Int) : Bool :=
  year % 4 == 0 && (year % 100 != 0 || year % 400 == 0)

/-- The lengths of the months of a year. -/
def monthLengths (leap : Bool) : List Nat :=
  [31, if leap then 29 else 28, 31, 30, 31, 30, 31, 31, 30, 31, 30, 31]

/-- The number of days of a month, zero for a month that does not exist. -/
def monthLength (year : Int) (month : Nat) : Nat :=
  if month = 0 then 0 else (monthLengths (isLeapYear year)).getD (month - 1) 0

/-- Whether the day exists. -/
def isValid (d : Date) : Bool :=
  decide (1 ≤ d.day ∧ d.day ≤ monthLength d.year d.month)

/-- The days between the first day of year zero and the first day of `year`. -/
def daysBeforeYear (year : Int) : Int :=
  365 * year + (year + 3) / 4 - (year + 99) / 100 + (year + 399) / 400

/-- The days of a year that pass before a month begins. -/
def daysBeforeMonth (leap : Bool) (month : Nat) : Nat :=
  ((monthLengths leap).take (month - 1)).sum

/-- The days between the first day of year zero and the first day of 1970. -/
def epoch : Int := 719528

/-- The number of a day, counted from the first day of 1970. -/
def dayNumber (d : Date) : Int :=
  daysBeforeYear d.year + daysBeforeMonth (isLeapYear d.year) d.month + (d.day - 1) - epoch

/-- The year that a day belongs to, by its count from the first day of year zero. The mean
length of a year gives the year or one of its neighbours. -/
def yearOf (days : Int) : Int :=
  let guess := days * 400 / 146097
  if daysBeforeYear (guess + 1) ≤ days then guess + 1
  else if daysBeforeYear guess ≤ days then guess
  else guess - 1

/-- The month, counted from `first`, and the day, counted from zero, that `days` days into a
run of months of the given lengths belong to. -/
def splitMonths : List Nat → Nat → Nat → Nat × Nat
  | [], first, days => (first, days)
  | length :: rest, first, days =>
    if days < length then (first, days) else splitMonths rest (first + 1) (days - length)

/-- The day of a number, counted from the first day of 1970. -/
def ofDayNumber (number : Int) : Date :=
  let days := number + epoch
  let year := yearOf days
  let split := splitMonths (monthLengths (isLeapYear year)) 1 (days - daysBeforeYear year).toNat
  ⟨year, split.1, split.2 + 1⟩

end Date
end Sarif
