import Sarif.Number.Numeral

/-!
# Numbers that stand alone

A number that is not part of a document may be spelled more freely than one that is: with a plus
sign, with zeros in front, and with a point before its first digit or after its last. What the
numeral denotes is the same; only `Numeral.text` has one spelling for it.
-/

namespace Sarif
namespace Numeral

/-- Whether a character parts the digits of a number from its exponent. -/
def isExponentMark (c : Char) : Bool :=
  c == 'e' || c == 'E'

/-- The sign that a spelling begins with, negative or not, and what follows it. -/
def splitSign : List Char → Bool × List Char
  | '-' :: rest => (true, rest)
  | '+' :: rest => (false, rest)
  | text => (false, text)

/-- The value of a run of digits, of which at least one must be there. -/
def natural? (digits : List Char) : Option Nat :=
  if !digits.isEmpty && digits.all Char.isDigit then some (Nat.ofDigitChars 10 digits 0) else none

/-- The exponent that a spelling ends with, from its mark on; there may be none. -/
def exponentOf? : List Char → Option (Option Int)
  | [] => some none
  | _ :: text => do
    let (negative, digits) := splitSign text
    let value ← natural? digits
    some (some (if negative then -(value : Int) else value))

/-- The numeral of a spelling. -/
def ofSpelling? (text : List Char) : Option Numeral := do
  let (negative, text) := splitSign text
  let digits := text.takeWhile fun c => !isExponentMark c
  let exponent ← exponentOf? (text.dropWhile fun c => !isExponentMark c)
  let whole := digits.takeWhile (· != '.')
  let fraction := digits.drop (whole.length + 1)
  let _ ← natural? (whole ++ fraction)
  some ⟨negative, Nat.ofDigitChars 10 whole 0, fraction, exponent⟩

/-- The whole part of a numeral, with its sign. -/
def signedWhole (n : Numeral) : Int :=
  if n.negative then -n.whole else n.whole

end Numeral
end Sarif
