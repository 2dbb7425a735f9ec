/-!
# Sentinels

Indexes, counts and offsets that have not been populated are written as `-1`. A `Sentinel`
holds that wire value; `Sentinel.value?` shows the field as an optional natural number. The
ways to make one are `Sentinel.unset`, `Sentinel.ofNat`, which keeps to the largest value a
field can hold, and `Sentinel.ofRaw?`, which refuses anything below `-1`.
-/

namespace Sarif

-- Powers are those of the core library, wherever Mathlib is imported too.
attribute [local instance (2000)] instPowNat

/-- An integer field whose unset value is `-1`. -/
structure Sentinel where
  raw : Int64
  deriving DecidableEq, Repr

namespace Sentinel

/-- The sentinel of a field that is not populated. -/
def unset : Sentinel := ⟨-1⟩

/-- The sentinel that holds `n`, or the largest value if `n` does not fit. -/
def ofNat (n : Nat) : Sentinel :=
  ⟨if n < 2 ^ (63 : Nat) then Int64.ofNat n else Int64.maxValue⟩

/-- The sentinel that holds `n`, unset if there is none. -/
def ofOption (n : Option Nat) : Sentinel :=
  (n.map ofNat).getD unset

/-- Whether an integer may stand on the wire for a sentinel. -/
def admits (raw : Int64) : Bool :=
  decide (-1 ≤ raw)

/-- The sentinel of a wire value, which must not be below `-1`. -/
def ofRaw? (raw : Int64) : Option Sentinel :=
  if admits raw then some ⟨raw⟩ else none

/-- Whether the sentinel is the unset one. -/
def isUnset (s : Sentinel) : Bool :=
  s.raw == -1

/-- The value held, if the sentinel is not negative. -/
def value? (s : Sentinel) : Option Nat :=
  if 0 ≤ s.raw then some s.raw.toInt.toNat else none

/-- The order of sentinels is the order of their wire values, so the unset one comes first. -/
def compare (s t : Sentinel) : Ordering :=
  Ord.compare s.raw.toInt t.raw.toInt

/-- A well-formed sentinel is not below `-1`. -/
def WellFormed (s : Sentinel) : Prop :=
  -1 ≤ s.raw

end Sentinel
end Sarif
