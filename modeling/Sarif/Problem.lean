import Sarif.Schema.Kind
import Sarif.Number.Numeral
import Sarif.Number.Width
import Sarif.Text.Document
import Sarif.Text.Hidden

/-!
# What can go wrong in reading

Reading a text ends with a value or with the first problem from the left: a defect of the text
itself, or a mismatch between the text and the type that is read. The wording of every mismatch
is in `Mismatch.message`.
-/

namespace Sarif

/-- What a reader found where it wanted something else. -/
inductive Found where
  | null
  | boolean (value : Bool)
  | integer (value : Int)
  | float (value : Binary64)
  | string (value : String)
  | sequence
  | map
  deriving DecidableEq, Repr

/-- What a reader wanted. -/
inductive Wanted where
  | string
  | boolean
  | integer (width : Width)
  | float
  | dateTime
  | sequence
  | map
  | unit
  | node (kind : Kind)
  | stringOrMap
  deriving DecidableEq, Repr

/-- How a well-formed text can fail to be a value of a type. -/
inductive Mismatch where
  | wrongType (found : Found) (wanted : Wanted)
  | outOfRange (found : Int) (width : Width)
  | invalidSentinel (raw : Int64)
  | repeatedField (name : String)
  | unknownVariant (name : String) (known : List String)
  | invalidDateTime
  /-- An object with no or several members stands for a choice. -/
  | severalMembers
  /-- A node in positional form has more values than fields. -/
  | tooManyItems (length : Nat)
  deriving DecidableEq, Repr

/-- Why reading stopped. -/
inductive Problem where
  | broken (defect : Defect)
  | mismatch (what : Mismatch)
  deriving DecidableEq, Repr

/-- Text set in backticks. -/
def backticked (s : String) : String :=
  "`" ++ s ++ "`"

namespace Found

/-- A character within quoted text. -/
def quotedChar (c : Char) : List Char :=
  if c = '"' ∨ c = '\\' then ['\\', c]
  else if c = '\t' then ['\\', 't']
  else if c = '\r' then ['\\', 'r']
  else if c = '\n' then ['\\', 'n']
  else if c.toNat = 0 then ['\\', '0']
  else if Hidden.includes c then
    ['\\', 'u', '{'] ++ Nat.toDigits 16 c.toNat ++ ['}']
  else [c]

/-- A string in quotes, as messages show it. -/
def quoted (s : String) : String :=
  String.ofList ('"' :: s.toList.flatMap quotedChar ++ ['"'])

/-- How messages call what was found. -/
def text : Found → String
  | null => "null"
  | boolean b => "boolean " ++ backticked (if b then "true" else "false")
  | integer i => "integer " ++ backticked (Number.integer i).text
  | float x => "floating point " ++ backticked (Number.float x).text
  | string s => "string " ++ quoted s
  | sequence => "sequence"
  | map => "map"

end Found

namespace Wanted

/-- How messages call what was wanted. -/
def text : Wanted → String
  | string => "a string"
  | boolean => "a boolean"
  | integer w => w.name
  | float => "f64"
  | dateTime => "an RFC 3339 formatted date and time string"
  | sequence => "a sequence"
  | map => "a map"
  | unit => "unit"
  | node k => "struct " ++ k.name
  | stringOrMap => "string or map"

end Wanted

namespace Mismatch

/-- The known names of a choice, as messages list them. -/
def namesText : List String → String
  | [] => "nothing"
  | [only] => backticked only
  | [first, second] => backticked first ++ " or " ++ backticked second
  | names => "one of " ++ ", ".intercalate (names.map backticked)

/-- The message of an invalid sentinel. -/
def sentinelMessage (raw : Int64) : String :=
  "invalid sentinel value " ++ (Number.integer raw.toInt).text ++
    ": must be -1 (unset) or non-negative"

/-- The wording of a mismatch. -/
def message : Mismatch → String
  | wrongType found wanted => "invalid type: " ++ found.text ++ ", expected " ++ wanted.text
  | outOfRange i w =>
    "invalid value: integer " ++ backticked (Number.integer i).text ++ ", expected " ++ w.name
  | invalidSentinel raw => sentinelMessage raw
  | repeatedField name => "duplicate field " ++ backticked name
  | unknownVariant name known =>
    "unknown variant " ++ backticked name ++ ", expected " ++ namesText known
  | invalidDateTime => "invalid date-time"
  | severalMembers => "invalid value: map, expected map with a single key"
  | tooManyItems length =>
    "invalid length " ++ (Number.integer length).text ++ ", expected fewer elements in array"

end Mismatch
end Sarif
