/-!
# String literals

A `Literal` is a string as it stands in a text: the characters between its quotes, with simple
escapes already resolved, and the way it ends. Surrogate escapes are kept apart, since they
stand for a character only in pairs, and since a text that is skipped over may hold them
unpaired. `Literal.decode` says which string a literal denotes, `Literal.ofString` which
literal a string is written as, and `Literal.text` how it is spelled.
-/

namespace Sarif

/-- What is wrong with a text that is not JSON: it stops too early, or something in it cannot
stand where it does. -/
inductive Defect where
  | truncated
  | malformed
  deriving DecidableEq, Repr

/-- A piece of a string literal: a character, or half of a surrogate pair. -/
inductive Piece where
  | char (c : Char)
  | surrogate (unit : Nat)
  deriving DecidableEq, Repr

/-- A string as it stands in a text; `defect` is set when it has no closing quote. -/
structure Literal where
  pieces : List Piece
  defect : Option Defect
  deriving DecidableEq, Repr

namespace Piece

/-- Whether a code unit is the first half of a surrogate pair. -/
def isHigh (unit : Nat) : Bool :=
  decide (0xD800 ≤ unit ∧ unit < 0xDC00)

/-- Whether a code unit is the second half of a surrogate pair. -/
def isLow (unit : Nat) : Bool :=
  decide (0xDC00 ≤ unit ∧ unit < 0xE000)

/-- The character that a surrogate pair stands for. -/
def ofPair (high low : Nat) : Char :=
  Char.ofNat (0x10000 + (high - 0xD800) * 0x400 + (low - 0xDC00))

/-- The piece that a four-digit escape stands for. -/
def ofUnit (unit : Nat) : Piece :=
  if isHigh unit || isLow unit then .surrogate unit else .char (Char.ofNat unit)

end Piece

namespace Literal

/-- The characters of a run of pieces that `defect` follows. Surrogates must pair; a first
half at the very end of a text that stops is cut off rather than unpaired. -/
def decodePieces (defect : Option Defect) : List Piece → Except Defect (List Char)
  | [] =>
    match defect with
    | some d => .error d
    | none => .ok []
  | .char c :: rest => (decodePieces defect rest).map (c :: ·)
  | .surrogate high :: .surrogate low :: rest =>
    if Piece.isHigh high && Piece.isLow low then
      (decodePieces defect rest).map (Piece.ofPair high low :: ·)
    else .error .malformed
  | .surrogate high :: [] =>
    if Piece.isHigh high then .error (defect.getD .malformed) else .error .malformed
  | .surrogate _ :: .char _ :: _ => .error .malformed

/-- The string that a literal denotes. -/
def decode (l : Literal) : Except Defect String :=
  (decodePieces l.defect l.pieces).map String.ofList

/-- The literal that a string is written as. -/
def ofString (s : String) : Literal :=
  ⟨s.toList.map .char, none⟩

/-- The hexadecimal digit of a number below sixteen. -/
def hexDigit (n : Nat) : Char :=
  Nat.digitChar n

/-- A four-digit escape. -/
def unitEscape (unit : Nat) : List Char :=
  ['\\', 'u', hexDigit (unit / 4096 % 16), hexDigit (unit / 256 % 16),
    hexDigit (unit / 16 % 16), hexDigit (unit % 16)]

/-- The spelling of a character: quotes, backslashes and control characters below U+0020 are
escaped, everything else stands for itself. -/
def charText (c : Char) : List Char :=
  if c = '"' then ['\\', '"']
  else if c = '\\' then ['\\', '\\']
  else if c = '\x08' then ['\\', 'b']
  else if c = '\x0c' then ['\\', 'f']
  else if c = '\n' then ['\\', 'n']
  else if c = '\r' then ['\\', 'r']
  else if c = '\t' then ['\\', 't']
  else if c.toNat < 0x20 then unitEscape c.toNat
  else [c]

/-- The spelling of a piece. -/
def pieceText : Piece → List Char
  | .char c => charText c
  | .surrogate unit => unitEscape unit

/-- The spelling of a literal. -/
def text (l : Literal) : List Char :=
  '"' :: l.pieces.flatMap pieceText ++ ['"']

end Literal
end Sarif
