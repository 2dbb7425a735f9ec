import Sarif.Number.Decimal

/-!
# Binary64 words

Floating-point values are kept as their 64-bit words, so that the two zeros and every payload
stay apart and every operation is exact arithmetic on natural numbers. The module holds the
fields of a word, the exact value of a finite one, the comparison that identifies the two
zeros, and rounding of a quotient or a decimal to the nearest word. No runtime floating-point
operation is involved.

Magnitudes are counted in units of `2 ^ (-1074)`, the least positive value. In these units a
magnitude below `2 ^ 53` is its own word, and a larger one is a 53-bit significand shifted by
its binade, which is how `roundQuotient` builds it.
-/

namespace Sarif

-- Powers are those of the core library, wherever Mathlib is imported too.
attribute [local instance (2000)] instPowNat

/-- A floating-point value as its binary64 word. -/
structure Binary64 where
  bits : UInt64
  deriving DecidableEq, Repr

namespace Binary64

/-- The weight of the sign bit. -/
def signWeight : Nat := 2 ^ (63 : Nat)

/-- The number of magnitudes that share a binade. -/
def binadeSize : Nat := 2 ^ (52 : Nat)

/-- The magnitude of the infinities, one above the largest finite one. -/
def infinityMagnitude : Nat := 2047 * binadeSize

/-- The word without its sign bit. -/
def magnitude (x : Binary64) : Nat :=
  x.bits.toNat % signWeight

/-- Whether the sign bit is set. -/
def negative (x : Binary64) : Bool :=
  decide (signWeight ≤ x.bits.toNat)

/-- The word with the given sign and magnitude. -/
def ofMagnitude (negative : Bool) (magnitude : Nat) : Binary64 :=
  ⟨UInt64.ofNat (magnitude + if negative then signWeight else 0)⟩

/-- The value `0.0`. -/
def zero : Binary64 := ofMagnitude false 0

/-- The value `-0.0`. -/
def negativeZero : Binary64 := ofMagnitude true 0

/-- Whether the value is one of the two zeros. -/
def isZero (x : Binary64) : Bool :=
  x.magnitude == 0

/-- Whether the value is neither infinite nor a NaN. -/
def isFinite (x : Binary64) : Bool :=
  decide (x.magnitude < infinityMagnitude)

/-- Whether the value is a NaN. -/
def isNaN (x : Binary64) : Bool :=
  decide (infinityMagnitude < x.magnitude)

/-- The binade of a magnitude: how far its significand is shifted, in units of
`2 ^ (-1074)`. -/
def binade (x : Binary64) : Nat :=
  x.magnitude / binadeSize - 1

/-- The significand of a magnitude, with its hidden bit in every binade but the lowest. -/
def significand (x : Binary64) : Nat :=
  x.magnitude - x.binade * binadeSize

/-- Numeric equality: the two zeros are equal, and a NaN differs from everything. -/
def sameNumber (x y : Binary64) : Bool :=
  !x.isNaN && (x == y || (x.isZero && y.isZero))

/-- The word with both zeros sent to `0.0`. -/
def normalizeZero (x : Binary64) : Binary64 :=
  if x.isZero then zero else x

/-- The natural number nearest to `numerator / denominator`, the even one of two equally
near. -/
def roundHalfEven (numerator denominator : Nat) : Nat :=
  let low := numerator / denominator
  let rest := numerator % denominator
  if 2 * rest < denominator then low
  else if denominator < 2 * rest then low + 1
  else if low % 2 = 0 then low else low + 1

/-- The magnitude nearest to `numerator / denominator`, the even one of two equally near;
`none` when it is not below infinity. -/
def roundQuotient (numerator denominator : Nat) : Option Nat :=
  let units := numerator * 2 ^ (1074 : Nat)
  let shift := (units / denominator).log2 - 52
  let magnitude := shift * binadeSize + roundHalfEven units (denominator * 2 ^ shift)
  if magnitude < infinityMagnitude then some magnitude else none

/-- The magnitude nearest to a decimal. Decimals of four hundred places or more on either side
of the point are settled by their size alone. -/
def roundDecimal (d : Decimal) : Option Nat :=
  if d.coefficient = 0 then some 0
  else if d.magnitude < -400 then some 0
  else if 400 < d.magnitude then none
  else roundQuotient d.numerator d.denominator

/-- The numerator of the exact magnitude of a finite value. -/
def numerator (x : Binary64) : Nat :=
  x.significand * 2 ^ (x.binade - 1074)

/-- The denominator of the exact magnitude of a finite value. -/
def denominator (x : Binary64) : Nat :=
  2 ^ (1074 - x.binade)

/-- The exact magnitude of a finite value, which is a finite decimal. -/
def exactDecimal (x : Binary64) : Decimal :=
  let places := 1074 - x.binade
  ⟨x.numerator * 5 ^ places, -places⟩

end Binary64
end Sarif
