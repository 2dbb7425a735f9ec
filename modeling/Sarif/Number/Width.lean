/-!
# Integer widths

Integers are read into a fixed width and refused outside its range. SARIF itself uses signed
64-bit integers; the other widths serve property values, whose readers choose their own type.
-/

namespace Sarif

-- Powers are those of the core library, wherever Mathlib is imported too.
attribute [local instance (2000)] instPowNat

/-- A fixed-width integer type. -/
inductive Width where
  | signed64
  | signed32
  | unsigned64
  | unsigned8
  deriving DecidableEq, Repr

namespace Width

/-- The words of a width. -/
abbrev Word : Width → Type
  | signed64 => Int64
  | signed32 => Int32
  | unsigned64 => UInt64
  | unsigned8 => UInt8

/-- The least integer of a width. -/
def least : Width → Int
  | signed64 => -2 ^ (63 : Nat)
  | signed32 => -2 ^ (31 : Nat)
  | unsigned64 => 0
  | unsigned8 => 0

/-- The largest integer of a width. -/
def largest : Width → Int
  | signed64 => 2 ^ (63 : Nat) - 1
  | signed32 => 2 ^ (31 : Nat) - 1
  | unsigned64 => 2 ^ (64 : Nat) - 1
  | unsigned8 => 2 ^ (8 : Nat) - 1

/-- Whether an integer fits a width. -/
def holds (w : Width) (i : Int) : Bool :=
  decide (w.least ≤ i ∧ i ≤ w.largest)

/-- The integer that a word stands for. -/
def toInt : (w : Width) → w.Word → Int
  | signed64, x => Int64.toInt x
  | signed32, x => Int32.toInt x
  | unsigned64, x => (UInt64.toNat x : Int)
  | unsigned8, x => (UInt8.toNat x : Int)

/-- The word that stands for an integer within the width. -/
def ofInt : (w : Width) → Int → w.Word
  | signed64, i => Int64.ofInt i
  | signed32, i => Int32.ofInt i
  | unsigned64, i => UInt64.ofInt i
  | unsigned8, i => UInt8.ofInt i

/-- Zero in a width. -/
def zero (w : Width) : w.Word :=
  w.ofInt 0

/-- How a width is called in messages. -/
def name : Width → String
  | signed64 => "i64"
  | signed32 => "i32"
  | unsigned64 => "u64"
  | unsigned8 => "u8"

end Width

instance (w : Width) : DecidableEq w.Word :=
  match w with
  | .signed64 => inferInstanceAs (DecidableEq Int64)
  | .signed32 => inferInstanceAs (DecidableEq Int32)
  | .unsigned64 => inferInstanceAs (DecidableEq UInt64)
  | .unsigned8 => inferInstanceAs (DecidableEq UInt8)

end Sarif
