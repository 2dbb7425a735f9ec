/-!
# Finite decimals

A `Decimal` is a natural coefficient times a power of ten. It is what a written number
denotes before its sign is put on it, and what the writer of floating-point numbers chooses
its digits as. Signs, and the text around the digits, belong to `Sarif.Number.Numeral`.
-/

namespace Sarif

-- Powers are those of the core library, wherever Mathlib is imported too.
attribute [local instance (2000)] instPowNat

/-- The number `coefficient * 10 ^ scale`. -/
structure Decimal where
  coefficient : Nat
  scale : Int
  deriving DecidableEq, Repr

namespace Decimal

/-- The number of decimal digits of a natural number; zero has one. -/
def digitCount (n : Nat) : Nat :=
  (Nat.toDigits 10 n).length

/-- The numerator of the decimal as a quotient of natural numbers. -/
def numerator (d : Decimal) : Nat :=
  d.coefficient * 10 ^ d.scale.toNat

/-- The denominator of the decimal as a quotient of natural numbers. -/
def denominator (d : Decimal) : Nat :=
  10 ^ (-d.scale).toNat

/-- The exponent `e` with `10 ^ (e - 1) ≤ d < 10 ^ e`, for a decimal other than zero. -/
def magnitude (d : Decimal) : Int :=
  digitCount d.coefficient + d.scale

/-- Moves trailing zeros of the coefficient into the scale, at most `limit` of them. -/
def trimBelow : Nat → Decimal → Decimal
  | 0, d => d
  | limit + 1, d =>
    if d.coefficient % 10 = 0 then trimBelow limit ⟨d.coefficient / 10, d.scale + 1⟩ else d

/-- The same number with no trailing zero in its coefficient, unless it is zero. -/
def trim (d : Decimal) : Decimal :=
  trimBelow (digitCount d.coefficient - 1) d

end Decimal
end Sarif
