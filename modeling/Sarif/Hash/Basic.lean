import Sarif.Hash.SipHash
import Sarif.Number.Binary64
import Sarif.Time.DateTime
import Sarif.Sentinel
import Sarif.Schema.Choice
import Sarif.Number.Width

/-!
# Structural hashes

A structural hash is a 32-bit word. A sequence folds its elements into a running hash by
`31 * hash + element`, so that order counts; a map takes the exclusive or of its entries, so
that order does not. This module has the arithmetic and the hashes of single values; strings
and choices go through SipHash, everything else has an arithmetic form.
-/

namespace Sarif

/-- A structural hash. -/
abbrev HashCode := UInt32

namespace HashCode

/-- The hash that every sequence starts from. -/
def seed : HashCode := 17

/-- Folds one more element into a running hash. -/
def combine (running element : HashCode) : HashCode :=
  running * 31 + element

/-- The hash as a signed integer. -/
def toInt (h : HashCode) : Int :=
  h.toInt32.toInt

/-- The hash of a 64-bit word: its two halves laid over each other. -/
def ofWord (word : UInt64) : HashCode :=
  (word ^^^ (word >>> 32)).toUInt32

/-- The hash of a string: its bytes in UTF-8 and an end mark. -/
def ofString (s : String) : HashCode :=
  (SipHash.ofBytes (s.toUTF8.data.toList ++ [0xff])).toUInt32

/-- The hash of a truth value. -/
def ofBool (b : Bool) : HashCode :=
  if b then 1 else 0

/-- The hash of a signed 64-bit integer. -/
def ofInt64 (i : Int64) : HashCode :=
  ofWord i.toUInt64

/-- The hash of an integer of any width; the narrow widths hash as themselves. -/
def ofInteger : (w : Width) → w.Word → HashCode
  | .signed64, i => ofInt64 i
  | .signed32, i => Int32.toUInt32 i
  | .unsigned64, i => ofWord i
  | .unsigned8, i => UInt8.toUInt32 i

/-- The hash of a floating-point value, the same for both zeros. -/
def ofFloat (x : Binary64) : HashCode :=
  ofWord x.normalizeZero.bits

/-- The hash of a sentinel. -/
def ofSentinel (s : Sentinel) : HashCode :=
  ofInt64 s.raw

/-- The hash of a date-time: its seconds, then its nanoseconds. -/
def ofDateTime (t : DateTime) : HashCode :=
  combine (ofInt64 (Int64.ofInt t.seconds)) (ofInt64 (Int64.ofNat t.nanos))

/-- The little-endian bytes of a number. -/
def bytesOf (n : Nat) : Nat → List UInt8
  | 0 => []
  | count + 1 => UInt8.ofNat n :: bytesOf (n / 256) count

/-- The hash of a choice: the position of its value. -/
def ofChoice (c : Choice) (value : c.Value) : HashCode :=
  (SipHash.ofBytes (bytesOf (c.position value) c.tagSize)).toUInt32

end HashCode
end Sarif
