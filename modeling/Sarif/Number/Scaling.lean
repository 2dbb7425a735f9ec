import Sarif.Number.Binary64

/-!
# Reading floating-point values by scaling

A text is not searched for the value nearest to the decimal it spells. As many of its leading
digits as fit a 64-bit word make a significand, the value nearest to that is multiplied or
divided by a power of ten, and what is below the reach of one power is divided several times.
Each of these steps rounds, so the result can differ from the nearest value in its last places.

The module has the arithmetic of these steps on magnitudes. A result that is not below infinity
is `none`.
-/

namespace Sarif

-- Powers are those of the core library, wherever Mathlib is imported too.
attribute [local instance (2000)] instPowNat

namespace Binary64

/-- The largest significand that a reader takes digits into. -/
def maxSignificand : Nat := 2 ^ (64 : Nat) - 1

/-- The largest exponent of a power of ten that a reader scales by at once. -/
def maxPlaces : Nat := 308

/-- The value of a magnitude without a sign. -/
def positive (magnitude : Nat) : Binary64 :=
  ofMagnitude false magnitude

/-- The value nearest to a natural number; `none` when it overflows. -/
def ofNat? (n : Nat) : Option Binary64 :=
  (roundQuotient n 1).map positive

/-- The value nearest to the product of two magnitudes; `none` when it overflows. -/
def times? (x y : Binary64) : Option Binary64 :=
  (roundQuotient (x.numerator * y.numerator) (x.denominator * y.denominator)).map positive

/-- The value nearest to the quotient of two magnitudes, the second of which is not zero;
`none` when it overflows. -/
def over? (x y : Binary64) : Option Binary64 :=
  (roundQuotient (x.numerator * y.denominator) (x.denominator * y.numerator)).map positive

/-- Multiplies by the power of ten of so many places, as it is rounded itself. -/
def raise? (x : Binary64) (places : Nat) : Option Binary64 := do
  x.times? (← ofNat? (10 ^ places))

/-- Divides by the power of ten of so many places, as it is rounded itself. -/
def lower? (x : Binary64) (places : Nat) : Option Binary64 := do
  x.over? (← ofNat? (10 ^ places))

/-- Divides by the largest power of ten so many times, or until nothing is left. -/
def lowerAgain? (x : Binary64) : Nat → Option Binary64
  | 0 => some x
  | rounds + 1 => do
    if x.isZero then return x
    (← x.lower? maxPlaces).lowerAgain? rounds

/-- The value of a significand times a power of ten as a reader of texts finds it. An exponent
that is too large is an overflow, unless the significand is zero. -/
def ofParts? (significand : Nat) (exponent : Int) : Option Binary64 := do
  let start ← ofNat? significand
  match exponent with
  | .ofNat places =>
    if places ≤ maxPlaces then start.raise? places
    else if start.isZero then return start
    else none
  | .negSucc more =>
    -- the places are `more + 1`; the last division is by one to `maxPlaces` of them
    (← start.lowerAgain? (more / maxPlaces)).lower? (more % maxPlaces + 1)

end Binary64
end Sarif
