import Sarif.Problem
import Sarif.Json.Basic

/-!
# Where a document comes from

A document is read from a text or from a stored value. The two differ in little: only a text has a
limit on nesting, its floating-point numbers are read by scaling, and a choice that is neither a
string nor an object, or a node with too many positional values, is a defect of a text but a
mismatch of a stored value.

The module also reads what has no type of its own: strings, numbers, and JSON values of any
shape.
-/

namespace Sarif

/-- Where a document comes from. -/
inductive Source where
  /-- A text, in which `room` more arrays and objects may be opened within one another. -/
  | text (room : Nat)
  /-- A stored value. -/
  | stored
  deriving DecidableEq, Repr

namespace Source

/-- A text from its beginning, where arrays and objects may nest 127 deep. -/
def start : Source := text 127

/-- The source within one more array or object. -/
def enter : Source → Except Problem Source
  | text 0 => .error (.broken .malformed)
  | text (room + 1) => .ok (text room)
  | stored => .ok stored

/-- The floating-point value of a numeral. A reader of texts finds it by scaling, while a stored
value is the very number. -/
def float? : Source → Numeral → Option Binary64
  | text _, n => n.float?
  | stored, n => n.nearest?

end Source

namespace Problem

/-- The problem of a found value of the wrong type. -/
def wrongType (found : Found) (wanted : Wanted) : Problem :=
  .mismatch (.wrongType found wanted)

/-- Fails if there is a defect. -/
def guard : Option Defect → Except Problem Unit
  | none => .ok ()
  | some d => .error (.broken d)

end Problem

namespace Literal

/-- Reads the string of a literal. -/
def read (l : Literal) : Except Problem String :=
  match l.decode with
  | .ok s => .ok s
  | .error d => .error (.broken d)

end Literal

namespace Numeral

/-- Reads the number of a numeral; one that overflows is a defect. -/
def read (source : Source) (n : Numeral) : Except Problem Number :=
  match n.numberOr (source.float? n) with
  | some value => .ok value
  | none => .error (.broken .malformed)

end Numeral

/-- How messages call a number. -/
def Number.found : Number → Found
  | integer i => .integer i
  | float x => .float x

namespace Document

/-- What a reader finds that has no use for the document. Words, strings and numbers are read to
their end for it; arrays and objects are known by their opening mark. -/
def found (source : Source) : Document → Except Problem Found
  | .null => .ok .null
  | .boolean b => .ok (.boolean b)
  | .numeral n => (n.read source).map Number.found
  | .literal l => l.read.map .string
  | .array _ _ => .ok .sequence
  | .object _ _ => .ok .map
  | .broken b => .error (.broken b.defect)

/-- The failure of a reader that has no use for the document. -/
def refuse {α : Type} (source : Source) (wanted : Wanted) (d : Document) : Except Problem α := do
  throw (Problem.wrongType (← d.found source) wanted)

/-- Reads what may be absent: null is its absence. -/
def readOptional {α : Type} (read : Document → Except Problem α) :
    Document → Except Problem (Option α)
  | .null => .ok none
  | .broken (.null defect) => .error (.broken defect)
  | d => (read d).map some

end Document

namespace Json

mutual

/-- Reads a JSON value of any shape. -/
def read (source : Source) : Document → Except Problem Json
  | .null => .ok .null
  | .boolean b => .ok (.boolean b)
  | .numeral n => (n.read source).map .number
  | .literal l => l.read.map .string
  | .array items defect => do
    let inner ← source.enter
    let values ← readItems inner items
    Problem.guard defect
    return .array values
  | .object members ending => do
    let inner ← source.enter
    let values ← readMembers inner members
    Problem.guard ending.defect?
    return ofMembers values
  | .broken b => .error (.broken b.defect)

/-- Reads a run of items. -/
def readItems (source : Source) : List Document → Except Problem (List Json)
  | [] => .ok []
  | item :: rest => do
    let value ← read source item
    return value :: (← readItems source rest)

/-- Reads a run of members. -/
def readMembers (source : Source) :
    List (Literal × Document) → Except Problem (List (String × Json))
  | [] => .ok []
  | (name, value) :: rest => do
    let name ← name.read
    let value ← read source value
    return (name, value) :: (← readMembers source rest)

end

end Json
end Sarif
