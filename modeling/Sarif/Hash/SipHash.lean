/-!
# SipHash

SipHash-1-3 with the zero key: one round for every eight bytes, three to finish. Bytes are
pushed one at a time; a full word is mixed in as soon as it is there, and `finish` mixes in what
is left together with the length.
-/

namespace Sarif

/-- The state of the hash, with the bytes of the word that is not yet full. -/
structure SipHash where
  v0 : UInt64
  v1 : UInt64
  v2 : UInt64
  v3 : UInt64
  pending : UInt64
  length : Nat
  deriving DecidableEq, Repr

namespace SipHash

/-- The state before any byte. -/
def start : SipHash :=
  ⟨0x736f6d6570736575, 0x646f72616e646f6d, 0x6c7967656e657261, 0x7465646279746573, 0, 0⟩

/-- A word turned left. -/
def rotate (x : UInt64) (amount : UInt64) : UInt64 :=
  (x <<< amount) ||| (x >>> (64 - amount))

/-- One round. -/
def round (s : SipHash) : SipHash :=
  let v0 := s.v0 + s.v1
  let v1 := rotate s.v1 13 ^^^ v0
  let v0 := rotate v0 32
  let v2 := s.v2 + s.v3
  let v3 := rotate s.v3 16 ^^^ v2
  let v0 := v0 + v3
  let v3 := rotate v3 21 ^^^ v0
  let v2 := v2 + v1
  let v1 := rotate v1 17 ^^^ v2
  let v2 := rotate v2 32
  { s with v0, v1, v2, v3 }

/-- Mixes in a full word. -/
def absorb (s : SipHash) (word : UInt64) : SipHash :=
  let mixed := round { s with v3 := s.v3 ^^^ word }
  { mixed with v0 := mixed.v0 ^^^ word }

/-- Takes one more byte. -/
def push (s : SipHash) (byte : UInt8) : SipHash :=
  let place := s.length % 8
  let word := s.pending ||| (byte.toUInt64 <<< UInt64.ofNat (8 * place))
  if place = 7 then { absorb s word with pending := 0, length := s.length + 1 }
  else { s with pending := word, length := s.length + 1 }

/-- The hash of the bytes pushed so far. -/
def finish (s : SipHash) : UInt64 :=
  let last := s.pending ||| (UInt64.ofNat (s.length % 256) <<< 56)
  let mixed := absorb s last
  let final := round (round (round { mixed with v2 := mixed.v2 ^^^ 0xff }))
  final.v0 ^^^ final.v1 ^^^ final.v2 ^^^ final.v3

/-- The hash of a list of bytes. -/
def ofBytes (bytes : List UInt8) : UInt64 :=
  (bytes.foldl push start).finish

end SipHash
end Sarif
