import Sarif.Number.Numeral
import Sarif.Text.Literal

/-!
# Tokens

A text is read as a list of tokens by a scanner that takes one character at a time. The scanner
never fails: where the text is not JSON it emits a broken token, or a literal with a defect, and
is silent from there on. The end of the list is the end of the text.

A broken token remembers what it was the beginning of, because a reader that has no use for the
value finds out less about it than one that reads it: a number cut off by the end of the text is
merely malformed to a reader that skips it.
-/

namespace Sarif

/-- What stands where a value should begin and is none. -/
inductive Broken where
  /-- The text ends here. -/
  | missing
  /-- A character or a mark that begins no value. -/
  | unexpected
  /-- The beginning of `null` that goes wrong or stops. -/
  | null (defect : Defect)
  /-- The beginning of `true` or `false` that goes wrong or stops. -/
  | word (defect : Defect)
  /-- The beginning of a number that goes wrong or stops. -/
  | numeral (defect : Defect)
  deriving DecidableEq, Repr

namespace Broken

/-- The defect as found by a reader that reads the value. -/
def defect : Broken → Defect
  | missing => .truncated
  | unexpected => .malformed
  | null d => d
  | word d => d
  | numeral d => d

/-- The defect as found by a reader that skips the value. -/
def skipped : Broken → Defect
  | numeral _ => .malformed
  | b => b.defect

end Broken

/-- A token of a text. -/
inductive Token where
  | openArray
  | closeArray
  | openObject
  | closeObject
  | comma
  | colon
  | null
  | boolean (value : Bool)
  | numeral (value : Numeral)
  | literal (value : Literal)
  | broken (what : Broken)
  deriving DecidableEq, Repr

/-- How far into a number the scanner is. -/
inductive NumeralPhase where
  /-- After the minus sign: a digit must follow. -/
  | sign
  /-- After a leading zero: no digit may follow. -/
  | zero
  /-- In the whole part. -/
  | whole
  /-- After the decimal point: a digit must follow. -/
  | point
  /-- In the fraction. -/
  | fraction
  /-- After the exponent mark: a sign or a digit must follow. -/
  | mark
  /-- After the sign of the exponent: a digit must follow. -/
  | markSign (negative : Bool)
  /-- In the digits of the exponent. -/
  | exponent (negative : Bool)
  deriving DecidableEq, Repr

/-- Where the scanner stands between two characters. -/
inductive Scan where
  /-- Between tokens. -/
  | between
  /-- In a word, with the letters still owed and the token it stands for. -/
  | word (rest : List Char) (token : Token)
  /-- In a number, with what is known of it. -/
  | numeral (phase : NumeralPhase) (value : Numeral)
  /-- In a string, with its pieces so far, the last one first. -/
  | literal (before : List Piece)
  /-- In a string, after a backslash. -/
  | escape (before : List Piece)
  /-- In a four-digit escape: its value, the bytes it has used, and whether they were all
  hexadecimal digits. -/
  | unit (before : List Piece) (value bytes : Nat) (valid : Bool)
  /-- After a defect. -/
  | stopped
  deriving DecidableEq, Repr

namespace Scan

/-- The value of a decimal digit. -/
def digitValue (c : Char) : Nat :=
  c.toNat - '0'.toNat

/-- The value of a hexadecimal digit. -/
def hexValue? (c : Char) : Option Nat :=
  if c.isDigit then some (digitValue c)
  else if 'a' ≤ c ∧ c ≤ 'f' then some (c.toNat - 'a'.toNat + 10)
  else if 'A' ≤ c ∧ c ≤ 'F' then some (c.toNat - 'A'.toNat + 10)
  else none

/-- Blanks may stand between tokens. -/
def isBlank (c : Char) : Bool :=
  c == ' ' || c == '\t' || c == '\n' || c == '\r'

/-- The end of the scan at something that is not JSON. -/
def stop (token : Token) : Scan × List Token :=
  (.stopped, [token])

/-- A character between tokens. -/
def stepBetween (c : Char) : Scan × List Token :=
  if isBlank c then (.between, [])
  else if c = '"' then (.literal [], [])
  else if c = '[' then (.between, [.openArray])
  else if c = ']' then (.between, [.closeArray])
  else if c = '{' then (.between, [.openObject])
  else if c = '}' then (.between, [.closeObject])
  else if c = ',' then (.between, [.comma])
  else if c = ':' then (.between, [.colon])
  else if c = 'n' then (.word ['u', 'l', 'l'] .null, [])
  else if c = 't' then (.word ['r', 'u', 'e'] (.boolean true), [])
  else if c = 'f' then (.word ['a', 'l', 's', 'e'] (.boolean false), [])
  else if c = '-' then (.numeral .sign ⟨true, 0, [], none⟩, [])
  else if c = '0' then (.numeral .zero ⟨false, 0, [], none⟩, [])
  else if c.isDigit then (.numeral .whole ⟨false, digitValue c, [], none⟩, [])
  else stop (.broken .unexpected)

/-- The beginning of the word for `token`, with its defect. -/
def brokenWord (token : Token) (defect : Defect) : Token :=
  .broken (if token = .null then .null defect else .word defect)

/-- A character in a word. -/
def stepWord (rest : List Char) (token : Token) (c : Char) : Scan × List Token :=
  match rest with
  | [] => stop (brokenWord token .malformed)
  | [last] => if c = last then (.between, [token]) else stop (brokenWord token .malformed)
  | next :: more => if c = next then (.word more token, []) else stop (brokenWord token .malformed)

/-- The number goes wrong. -/
def badNumeral : Scan × List Token :=
  stop (.broken (.numeral .malformed))

/-- The number is over, and the character belongs to what follows. -/
def endNumeral (n : Numeral) (c : Char) : Scan × List Token :=
  let (next, tokens) := stepBetween c
  (next, .numeral n :: tokens)

/-- The number with one more digit in its exponent. -/
def pushExponent (n : Numeral) (negative : Bool) (c : Char) : Numeral :=
  let digit : Int := digitValue c
  let exponent := n.exponent.getD 0 * 10
  { n with exponent := some (if negative then exponent - digit else exponent + digit) }

/-- A character in a number. -/
def stepNumeral (phase : NumeralPhase) (n : Numeral) (c : Char) : Scan × List Token :=
  match phase with
  | .sign =>
    if c = '0' then (.numeral .zero n, [])
    else if c.isDigit then (.numeral .whole { n with whole := digitValue c }, [])
    else badNumeral
  | .zero =>
    if c.isDigit then badNumeral
    else if c = '.' then (.numeral .point n, [])
    else if c = 'e' ∨ c = 'E' then (.numeral .mark n, [])
    else endNumeral n c
  | .whole =>
    if c.isDigit then (.numeral .whole { n with whole := n.whole * 10 + digitValue c }, [])
    else if c = '.' then (.numeral .point n, [])
    else if c = 'e' ∨ c = 'E' then (.numeral .mark n, [])
    else endNumeral n c
  | .point =>
    if c.isDigit then (.numeral .fraction { n with fraction := [c] }, []) else badNumeral
  | .fraction =>
    if c.isDigit then (.numeral .fraction { n with fraction := n.fraction ++ [c] }, [])
    else if c = 'e' ∨ c = 'E' then (.numeral .mark n, [])
    else endNumeral n c
  | .mark =>
    if c = '-' then (.numeral (.markSign true) n, [])
    else if c = '+' then (.numeral (.markSign false) n, [])
    else if c.isDigit then (.numeral (.exponent false) (pushExponent n false c), [])
    else badNumeral
  | .markSign negative =>
    if c.isDigit then (.numeral (.exponent negative) (pushExponent n negative c), [])
    else badNumeral
  | .exponent negative =>
    if c.isDigit then (.numeral (.exponent negative) (pushExponent n negative c), [])
    else endNumeral n c

/-- The string breaks off with a defect. -/
def badLiteral (before : List Piece) (defect : Defect) : Scan × List Token :=
  stop (.literal ⟨before.reverse, some defect⟩)

/-- A character in a string. -/
def stepLiteral (before : List Piece) (c : Char) : Scan × List Token :=
  if c = '"' then (.between, [.literal ⟨before.reverse, none⟩])
  else if c = '\\' then (.escape before, [])
  else if c.toNat < 0x20 then badLiteral before .malformed
  else (.literal (.char c :: before), [])

/-- A character after a backslash. -/
def stepEscape (before : List Piece) (c : Char) : Scan × List Token :=
  if c = '"' ∨ c = '\\' ∨ c = '/' then (.literal (.char c :: before), [])
  else if c = 'b' then (.literal (.char '\x08' :: before), [])
  else if c = 'f' then (.literal (.char '\x0c' :: before), [])
  else if c = 'n' then (.literal (.char '\n' :: before), [])
  else if c = 'r' then (.literal (.char '\r' :: before), [])
  else if c = 't' then (.literal (.char '\t' :: before), [])
  else if c = 'u' then (.unit before 0 0 true, [])
  else badLiteral before .malformed

/-- A character in a four-digit escape. The escape takes four bytes whatever they are, so that
a text that ends within them is cut off rather than malformed. -/
def stepUnit (before : List Piece) (value bytes : Nat) (valid : Bool) (c : Char) :
    Scan × List Token :=
  let value' := value * 16 + (hexValue? c).getD 0
  let bytes' := bytes + c.utf8Size
  let valid' := valid && (hexValue? c).isSome
  if bytes' < 4 then (.unit before value' bytes' valid', [])
  else if valid' then (.literal (Piece.ofUnit value' :: before), [])
  else badLiteral before .malformed

/-- One character: where the scanner stands after it, and the tokens that it completes. -/
def step : Scan → Char → Scan × List Token
  | between, c => stepBetween c
  | word rest token, c => stepWord rest token c
  | numeral phase n, c => stepNumeral phase n c
  | literal before, c => stepLiteral before c
  | escape before, c => stepEscape before c
  | unit before value bytes valid, c => stepUnit before value bytes valid c
  | stopped, _ => (stopped, [])

/-- The tokens that the end of the text completes. -/
def finish : Scan → List Token
  | between => []
  | word _ token => [brokenWord token .truncated]
  | numeral .zero n => [.numeral n]
  | numeral .whole n => [.numeral n]
  | numeral .fraction n => [.numeral n]
  | numeral (.exponent _) n => [.numeral n]
  | numeral _ _ => [.broken (.numeral .truncated)]
  | literal before => [.literal ⟨before.reverse, some .truncated⟩]
  | escape before => [.literal ⟨before.reverse, some .truncated⟩]
  | unit before _ _ _ => [.literal ⟨before.reverse, some .truncated⟩]
  | stopped => []

/-- The tokens of the rest of a text. -/
def tokens (s : Scan) : List Char → List Token
  | [] => s.finish
  | c :: rest => (s.step c).2 ++ (s.step c).1.tokens rest

end Scan

/-- The tokens of a text. -/
def Token.ofText (text : List Char) : List Token :=
  Scan.between.tokens text

end Sarif
