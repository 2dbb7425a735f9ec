import Sarif.Number.Scaling
import Sarif.Number.Shortest

/-!
# Numbers and their written form

A `Number` is an integer or a floating-point value; the two sorts never compare equal. A
`Numeral` is a number as it stands in a text: sign, whole part, fraction digits and exponent.
The module says which number a numeral denotes, which one a reader of texts takes it for, which
numeral a number is written as, and how a numeral is spelled.

A numeral denotes the nearest floating-point value. A reader of texts scales the leading digits
instead, so the two can differ; they agree on integers.

An integer is written in full. A floating-point value is written with its shortest digits, in
plain form with at least one decimal from `0.00001` up to, and not including, `10 ^ 16`, and
with a signed exponent elsewhere.
-/

namespace Sarif

-- Powers are those of the core library, wherever Mathlib is imported too.
attribute [local instance (2000)] instPowNat

/-- A number of a JSON text: an integer, or a floating-point value. -/
inductive Number where
  | integer (value : Int)
  | float (value : Binary64)
  deriving DecidableEq, Repr

namespace Number

/-- The largest integer kept as an integer. -/
def maxInteger : Int := 2 ^ (64 : Nat) - 1

/-- The least integer kept as an integer. -/
def minInteger : Int := -2 ^ (63 : Nat)

/-- Numbers are equal when they are of one sort and equal in it. -/
def same : Number → Number → Bool
  | integer i, integer j => i == j
  | float x, float y => x.sameNumber y
  | _, _ => false

/-- The floating-point value nearest to an integer between `minInteger` and `maxInteger`. -/
def nearestFloat (i : Int) : Binary64 :=
  Binary64.ofMagnitude (decide (i < 0)) ((Binary64.roundQuotient i.natAbs 1).getD 0)

/-- The number as a floating-point value. -/
def toFloat : Number → Binary64
  | integer i => nearestFloat i
  | float x => x

end Number

/-- A number as it stands in a text. `fraction` holds decimal digits; it is empty when there
is no decimal point. -/
structure Numeral where
  negative : Bool
  whole : Nat
  fraction : List Char
  exponent : Option Int
  deriving DecidableEq, Repr

namespace Numeral

/-- Whether the numeral has neither a decimal point nor an exponent. -/
def integral (n : Numeral) : Bool :=
  n.fraction.isEmpty && n.exponent.isNone

/-- The decimal that the numeral denotes, its sign left aside. -/
def decimal (n : Numeral) : Decimal :=
  ⟨Nat.ofDigitChars 10 n.fraction n.whole, n.exponent.getD 0 - n.fraction.length⟩

/-- The floating-point value nearest to the numeral; `none` when it overflows. -/
def nearest? (n : Numeral) : Option Binary64 :=
  (Binary64.roundDecimal n.decimal).map (Binary64.ofMagnitude n.negative)

/-- Takes digits into a significand while it fits a 64-bit word: the significand, and how many
digits went into it. -/
def takeDigits (significand : Nat) : List Char → Nat × Nat
  | [] => (significand, 0)
  | digit :: rest =>
    let next := 10 * significand + (digit.toNat - '0'.toNat)
    if next ≤ Binary64.maxSignificand then
      let (last, taken) := takeDigits next rest
      (last, taken + 1)
    else (significand, 0)

/-- The floating-point value that a reader of texts finds in the numeral; `none` when it
overflows. Whole digits that do not fit the significand count as places, and fraction digits
that do not are lost. -/
def float? (n : Numeral) : Option Binary64 :=
  let digits := Nat.toDigits 10 n.whole
  let (significand, wholeTaken) := takeDigits 0 digits
  let (significand, fractionTaken) := takeDigits significand n.fraction
  let places : Int := digits.length - wholeTaken - fractionTaken
  (Binary64.ofParts? significand (places + n.exponent.getD 0)).map fun x =>
    Binary64.ofMagnitude n.negative x.magnitude

/-- The integer that an integral numeral stands for, if it is kept as one. A negative zero is
not. -/
def integer? (n : Numeral) : Option Int :=
  if n.negative then
    if 0 < n.whole ∧ Number.minInteger ≤ -n.whole then some (-n.whole) else none
  else if (n.whole : Int) ≤ Number.maxInteger then some n.whole
  else none

/-- The number of a numeral whose floating-point value is given: an integer if it is spelled as
one and fits, else that value. -/
def numberOr (float? : Option Binary64) (n : Numeral) : Option Number :=
  match if n.integral then n.integer? else none with
  | some i => some (.integer i)
  | none => float?.map .float

/-- The number that a numeral denotes. -/
def number? (n : Numeral) : Option Number :=
  n.numberOr n.nearest?

/-- The digits of `n`, filled up to `width` with zeros in front. -/
def paddedDigits (width n : Nat) : List Char :=
  List.replicate (width - Decimal.digitCount n) '0' ++ Nat.toDigits 10 n

/-- An integer written in full. -/
def ofInteger (i : Int) : Numeral :=
  ⟨decide (i < 0), i.natAbs, [], none⟩

/-- A decimal written with its point in place and at least one digit after it. -/
def plain (negative : Bool) (d : Decimal) : Numeral :=
  ⟨negative, d.numerator / d.denominator,
    paddedDigits (-d.scale).toNat (d.numerator % d.denominator), none⟩

/-- A decimal written with one digit before the point, if any, and an exponent. -/
def scientific (negative : Bool) (d : Decimal) : Numeral :=
  let places := Decimal.digitCount d.coefficient - 1
  ⟨negative, d.coefficient / 10 ^ places,
    if places = 0 then [] else paddedDigits places (d.coefficient % 10 ^ places),
    some (d.magnitude - 1)⟩

/-- The numeral of a finite floating-point value. -/
def ofFloat (x : Binary64) : Numeral :=
  let digits := x.shortest
  if -5 < digits.magnitude ∧ digits.magnitude ≤ 16 then plain x.negative digits
  else scientific x.negative digits

/-- The spelling of an exponent, always with its sign. -/
def exponentText (e : Int) : List Char :=
  'e' :: (if e < 0 then '-' else '+') :: Nat.toDigits 10 e.natAbs

/-- The spelling of a numeral. -/
def text (n : Numeral) : List Char :=
  (if n.negative then ['-'] else []) ++ Nat.toDigits 10 n.whole ++
    (if n.fraction.isEmpty then [] else '.' :: n.fraction) ++
    (n.exponent.map exponentText).getD []

end Numeral

/-- The numeral that a number is written as. -/
def Number.numeral : Number → Numeral
  | integer i => Numeral.ofInteger i
  | float x => Numeral.ofFloat x

/-- The text of a number. -/
def Number.text (n : Number) : String :=
  String.ofList n.numeral.text

end Sarif
