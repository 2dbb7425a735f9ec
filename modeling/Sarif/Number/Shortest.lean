import Sarif.Number.Binary64

/-!
# Shortest digits

The digits of a floating-point value are the fewest that read back to it; of equally short
ones those nearest to the value, and of two equally near those with an even last digit. The
search looks at the two neighbours of the value on the grid of decimals with one significant
digit, then two, and so on. Seventeen digits always suffice; the exact expansion stands behind
them, so that what is returned reads back whatever the search does.
-/

namespace Sarif
namespace Binary64

-- Powers are those of the core library, wherever Mathlib is imported too.
attribute [local instance (2000)] instPowNat

/-- The exponent `e` with `10 ^ (e - 1) ≤ numerator / denominator < 10 ^ e`, for a positive
quotient. -/
def decimalMagnitude (numerator denominator : Nat) : Int :=
  if denominator ≤ numerator then
    Decimal.digitCount (numerator / denominator)
  else
    1 - (Decimal.digitCount ((denominator + numerator - 1) / numerator - 1) : Int)

/-- Whether a decimal reads back to the magnitude of the value. -/
def readsBack (x : Binary64) (d : Decimal) : Bool :=
  roundDecimal d == some x.magnitude

/-- The better of the two neighbours of the value on the grid of decimals with `count`
significant digits, among those that read back. -/
def neighbour? (x : Binary64) (count : Nat) : Option Decimal :=
  let scale := decimalMagnitude x.numerator x.denominator - count
  let numerator := x.numerator * 10 ^ (-scale).toNat
  let denominator := x.denominator * 10 ^ scale.toNat
  let low : Decimal := ⟨numerator / denominator, scale⟩
  let high : Decimal := ⟨numerator / denominator + 1, scale⟩
  let nearest : Decimal := ⟨roundHalfEven numerator denominator, scale⟩
  if x.readsBack nearest then some nearest
  else if x.readsBack low then some low
  else if x.readsBack high then some high
  else none

/-- The neighbour on the first grid, of those with one to seventeen digits, that has one reading
back. -/
def search? (x : Binary64) : Option Decimal :=
  (List.range' 1 17).findSome? x.neighbour?

/-- The shortest decimal that reads back to the magnitude of a finite value. -/
def shortest (x : Binary64) : Decimal :=
  if x.isZero then ⟨0, 0⟩
  else (x.search?.getD x.exactDecimal).trim

end Binary64
end Sarif
