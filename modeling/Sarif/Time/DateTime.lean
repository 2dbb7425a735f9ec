import Sarif.Text.WhiteSpace
import Sarif.Time.Calendar

/-!
# Date-times

A date-time is a count of seconds since the first day of 1970, in universal time, and a count
of nanoseconds within the second. A leap second is the second before it with a thousand million
nanoseconds and more, so it may stand in any minute.

`ofText?` reads the internet form with some freedom. White space may stand at both ends, in
front of every number and of every mark between two numbers, and in front of the offset; a
number may have fewer digits than usual, and a year with a sign may have more. Date and time are
parted by a `T`, a `t` or a space. Any number of fraction digits may follow the seconds, of which
nine count. The offset from universal time is `Z`, `z`, `UTC` in any case, or a sign, two digits
of hours and two of minutes, with colons and white space between them or nothing.

`text` writes the strict form with `T` and `Z` and with no fraction, or three, six or nine
digits, whichever is the fewest that is exact.
-/

namespace Sarif

-- Powers are those of the core library, wherever Mathlib is imported too.
attribute [local instance (2000)] instPowNat

/-- A moment in universal time. -/
structure DateTime where
  seconds : Int
  nanos : Nat
  deriving DecidableEq, Repr

namespace DateTime

/-- The nanoseconds of a second. -/
def nanosPerSecond : Nat := 1000000000

/-- The seconds of a day without leap seconds. -/
def secondsPerDay : Int := 86400

/-- The first day that a date-time may fall on. -/
def firstDay : Date := ⟨-262143, 1, 1⟩

/-- The last day that a date-time may fall on. -/
def lastDay : Date := ⟨262142, 12, 31⟩

/-- Whether a date-time may fall on the day of a number. -/
def covers (day : Int) : Bool :=
  decide (firstDay.dayNumber ≤ day ∧ day ≤ lastDay.dayNumber)

/-- Takes a number off a text: its longest run of digits, up to `width` of them, and at least
one. -/
def takeNumber (width : Nat) (text : List Char) : Option (Nat × List Char) :=
  let digits := (text.take width).takeWhile Char.isDigit
  if digits.isEmpty then none
  else some (Nat.ofDigitChars 10 digits 0, text.drop digits.length)

/-- Takes a number of one or two digits off a text, after white space. -/
def takeField (text : List Char) : Option (Nat × List Char) :=
  takeNumber 2 (WhiteSpace.skip text)

/-- Takes the mark between two numbers off a text, after white space. -/
def takeMark (mark : Char) (text : List Char) : Option (List Char) :=
  match WhiteSpace.skip text with
  | c :: rest => if c = mark then some rest else none
  | [] => none

/-- Takes a year off a text, after white space: with a sign, any number of digits, without one
at most four. -/
def takeYear (text : List Char) : Option (Int × List Char) :=
  match WhiteSpace.skip text with
  | '-' :: rest => (takeNumber rest.length rest).map fun taken => (-(taken.1 : Int), taken.2)
  | '+' :: rest => (takeNumber rest.length rest).map fun taken => ((taken.1 : Int), taken.2)
  | text => (takeNumber 4 text).map fun taken => ((taken.1 : Int), taken.2)

/-- Takes a date off a text. -/
def takeDate (text : List Char) : Option (Date × List Char) := do
  let (year, text) ← takeYear text
  let text ← takeMark '-' text
  let (month, text) ← takeField text
  let text ← takeMark '-' text
  let (day, text) ← takeField text
  let date : Date := ⟨year, month, day⟩
  if date.isValid && covers date.dayNumber then some (date, text) else none

/-- Takes what parts date and time off a text. -/
def takeSeparator : List Char → Option (List Char)
  | c :: rest => if c = 'T' ∨ c = 't' ∨ c = ' ' then some rest else none
  | [] => none

/-- The nanoseconds that fraction digits stand for; those after the ninth are cut off. -/
def fractionNanos (digits : List Char) : Nat :=
  Nat.ofDigitChars 10 (digits.take 9) 0 * 10 ^ (9 - (digits.take 9).length)

/-- Takes a fraction of a second off a text, if there is one. -/
def takeFraction (text : List Char) : Option (Nat × List Char) :=
  match text with
  | '.' :: rest =>
    let digits := rest.takeWhile Char.isDigit
    if digits.isEmpty then none else some (fractionNanos digits, rest.dropWhile Char.isDigit)
  | _ => some (0, text)

/-- Takes a time of day off a text: its seconds since midnight, and its nanoseconds. -/
def takeTime (text : List Char) : Option ((Nat × Nat) × List Char) := do
  let (hour, text) ← takeField text
  let text ← takeMark ':' text
  let (minute, text) ← takeField text
  let text ← takeMark ':' text
  let (second, text) ← takeField text
  let (nanos, text) ← takeFraction text
  if hour < 24 ∧ minute < 60 ∧ second ≤ 60 then
    let minutes := hour * 60 + minute
    if second = 60 then some ((minutes * 60 + 59, nanosPerSecond + nanos), text)
    else some ((minutes * 60 + second, nanos), text)
  else none

/-- Takes a number of two digits off a text. -/
def takePair : List Char → Option (Nat × List Char)
  | tens :: ones :: rest =>
    if tens.isDigit && ones.isDigit then some (Nat.ofDigitChars 10 [tens, ones] 0, rest) else none
  | _ => none

/-- Whether the sign of an offset is negative. The minus sign proper is as good as the hyphen. -/
def isNegative? (sign : Char) : Option Bool :=
  if sign = '+' then some false
  else if sign = '-' ∨ sign = '\u2212' then some true
  else none

/-- Takes the hours and minutes of an offset off a text, in seconds. -/
def takeShift (text : List Char) : Option (Int × List Char) := do
  let (hour, text) ← takePair text
  let (minute, text) ← takePair (text.dropWhile fun c => c == ':' || WhiteSpace.includes c)
  if hour < 24 ∧ minute < 60 then some (((hour * 60 + minute : Nat) : Int) * 60, text) else none

/-- Takes the offset from universal time off a text, in seconds, after white space. -/
def takeOffset (text : List Char) : Option (Int × List Char) :=
  match WhiteSpace.skip text with
  | [] => none
  | sign :: rest =>
    if sign = 'Z' ∨ sign = 'z' then some (0, rest)
    else if ((sign :: rest).take 3).map Char.toUpper = ['U', 'T', 'C'] then some (0, rest.drop 2)
    else do
      let negative ← isNegative? sign
      let (shift, rest) ← takeShift rest
      some (if negative then -shift else shift, rest)

/-- The date-time that a text stands for. Both its day at the place of the offset and its day in
universal time must be covered. -/
def ofText? (text : List Char) : Option DateTime := do
  let (date, text) ← takeDate text
  let text ← takeSeparator text
  let ((time, nanos), text) ← takeTime text
  let (offset, text) ← takeOffset text
  let seconds := date.dayNumber * secondsPerDay + time - offset
  if (WhiteSpace.skip text).isEmpty && covers (seconds / secondsPerDay) then
    some ⟨seconds, nanos⟩
  else none

/-- The digits of `n`, filled up to `width` with zeros in front. -/
def padded (width n : Nat) : List Char :=
  let digits := Nat.toDigits 10 n
  List.replicate (width - digits.length) '0' ++ digits

/-- The text of a year: four digits, with a sign outside the years that four digits hold. -/
def yearText (year : Int) : List Char :=
  if year < 0 then '-' :: padded 4 year.natAbs
  else if year ≤ 9999 then padded 4 year.natAbs
  else '+' :: padded 4 year.natAbs

/-- The text of a fraction of a second. -/
def fractionText (nanos : Nat) : List Char :=
  if nanos = 0 then []
  else if nanos % 1000000 = 0 then '.' :: padded 3 (nanos / 1000000)
  else if nanos % 1000 = 0 then '.' :: padded 6 (nanos / 1000)
  else '.' :: padded 9 nanos

/-- The text of a date. -/
def dateText (d : Date) : List Char :=
  yearText d.year ++ '-' :: padded 2 d.month ++ '-' :: padded 2 d.day

/-- The text of a date-time. -/
def text (t : DateTime) : List Char :=
  let date := Date.ofDayNumber (t.seconds / secondsPerDay)
  let time := (t.seconds % secondsPerDay).toNat
  let leap := t.nanos / nanosPerSecond
  dateText date ++ 'T' :: padded 2 (time / 3600) ++ ':' :: padded 2 (time / 60 % 60) ++
    ':' :: padded 2 (time % 60 + leap) ++ fractionText (t.nanos % nanosPerSecond) ++ ['Z']

/-- A well-formed date-time has less than two thousand million nanoseconds, and a leap second
only at the end of a minute. -/
def WellFormed (t : DateTime) : Prop :=
  t.nanos < 2 * nanosPerSecond ∧ (nanosPerSecond ≤ t.nanos → t.seconds % 60 = 59)

end DateTime
end Sarif
