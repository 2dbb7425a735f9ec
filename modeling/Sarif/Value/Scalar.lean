import Sarif.Schema.Ty
import Sarif.Reading.Source

/-!
# Scalars

The values of each scalar type, and what every type can do: its default, equality, structural
hash, the document it is written as, and how it is read.
-/

namespace Sarif

namespace Choice

/-- Reads the value of a choice by its name. -/
def readName (c : Choice) (name : Literal) : Except Problem c.Value := do
  let name ← name.read
  match c.ofName? name with
  | some value => return value
  | none => throw (.mismatch (.unknownVariant name c.names))

/-- Reads the null that stands beside the name of a value in the object form of a choice. -/
def readUnit (source : Source) : Document → Except Problem Unit
  | .null => .ok ()
  | d => d.refuse source .unit

/-- What may stand between the one member of a choice in a text and the end of the object. -/
def closeText (rest : List (Literal × Document)) (ending : Ending) : Except Problem Unit :=
  match rest, ending with
  | [], .closed => .ok ()
  | [], .broken d => .error (.broken d)
  | _, _ => .error (.broken .malformed)

/-- Reads the object form of a choice in a text: the name of the value as the only member, with
null beside it. -/
def readTextObject (c : Choice) (source : Source) (members : List (Literal × Document))
    (ending : Ending) : Except Problem c.Value :=
  match members with
  | [] => .error (.broken (ending.defect?.getD .malformed))
  | (name, value) :: rest => do
    let chosen ← c.readName name
    readUnit source value
    closeText rest ending
    return chosen

/-- Reads the object form of a choice in a stored value. -/
def readStoredObject (c : Choice) (members : List (Literal × Document)) :
    Except Problem c.Value :=
  match members with
  | [(name, value)] => do
    let chosen ← c.readName name
    readUnit .stored value
    return chosen
  | _ => .error (.mismatch .severalMembers)

/-- Reads a value of a choice: its name, or an object with its name as the only member. In a
text nothing else is even looked at. -/
def read (c : Choice) (source : Source) (d : Document) : Except Problem c.Value :=
  match source, d with
  | _, .literal name => c.readName name
  | .text _, .object members ending => do
    let inner ← source.enter
    c.readTextObject inner members ending
  | .stored, .object members _ => c.readStoredObject members
  | .text _, .broken .missing => .error (.broken .truncated)
  | .text _, _ => .error (.broken .malformed)
  | .stored, other => other.refuse .stored .stringOrMap

end Choice

namespace Width

/-- Reads an integer of a width. -/
def read (w : Width) (source : Source) : Document → Except Problem w.Word
  | .numeral n => do
    match ← n.read source with
    | .integer i =>
      if w.holds i then return w.ofInt i else throw (.mismatch (.outOfRange i w))
    | .float x => throw (Problem.wrongType (.float x) (.integer w))
  | d => d.refuse source (.integer w)

end Width

namespace Sentinel

/-- Reads a sentinel: an integer that is not below `-1`. -/
def read (source : Source) (d : Document) : Except Problem Sentinel := do
  let raw ← Width.read .signed64 source d
  match ofRaw? raw with
  | some s => return s
  | none => throw (.mismatch (.invalidSentinel raw))

end Sentinel

namespace DateTime

/-- Reads a date-time from a string. -/
def read (source : Source) : Document → Except Problem DateTime
  | .literal l => do
    let s ← l.read
    match ofText? s.toList with
    | some t => return t
    | none => throw (.mismatch .invalidDateTime)
  | d => d.refuse source .dateTime

end DateTime

namespace Scalar

/-- The values of a scalar type. -/
abbrev Value : Scalar → Type
  | text => String
  | boolean => Bool
  | integer w => w.Word
  | number => Binary64
  | sentinel => Sentinel
  | dateTime => DateTime
  | choice c => c.Value
  | json => Json
  | unit => Unit

/-- The value that a missing field of the type has. -/
def default : (s : Scalar) → s.Value
  | text => ""
  | boolean => false
  | integer w => w.zero
  | number => Binary64.zero
  | sentinel => Sentinel.unset
  | dateTime => ⟨0, 0⟩
  | choice c => c.default
  | json => Json.null
  | unit => ()

/-- Equality of scalars; it identifies the two zeros. -/
def same : (s : Scalar) → s.Value → s.Value → Bool
  | text, x, y => decide (x = y)
  | boolean, x, y => decide (x = y)
  | integer _, x, y => decide (x = y)
  | number, x, y => Binary64.sameNumber x y
  | sentinel, x, y => decide (x = y)
  | dateTime, x, y => decide (x = y)
  | choice _, x, y => decide (x = y)
  | json, x, y => Json.same x y
  | unit, _, _ => true

/-- The structural hash of a scalar. -/
def hash : (s : Scalar) → s.Value → HashCode
  | text, x => HashCode.ofString x
  | boolean, x => HashCode.ofBool x
  | integer w, x => HashCode.ofInteger w x
  | number, x => HashCode.ofFloat x
  | sentinel, x => HashCode.ofSentinel x
  | dateTime, x => HashCode.ofDateTime x
  | choice c, x => HashCode.ofChoice c x
  | json, x => Json.hash x
  | unit, _ => 0

/-- The document of an integer. -/
def integerDocument (i : Int) : Document :=
  .numeral (Number.integer i).numeral

/-- The document that a scalar is written as. A number that is not finite is written as null. -/
def document : (s : Scalar) → s.Value → Document
  | text, x => Document.string x
  | boolean, x => .boolean x
  | integer w, x => integerDocument (w.toInt x)
  | number, x => if Binary64.isFinite x then .numeral (Number.float x).numeral else .null
  | sentinel, x => integerDocument (Int64.toInt (Sentinel.raw x))
  | dateTime, x => Document.string (String.ofList (DateTime.text x))
  | choice c, x => Document.string (c.name x)
  | json, x => Json.document x
  | unit, _ => .null

/-- Reads a scalar. -/
def read (source : Source) : (s : Scalar) → Document → Except Problem s.Value
  | text, .literal l => l.read
  | text, d => d.refuse source .string
  | boolean, .boolean b => .ok b
  | boolean, d => d.refuse source .boolean
  | integer w, d => w.read source d
  | number, .numeral n => (n.read source).map Number.toFloat
  | number, d => d.refuse source .float
  | sentinel, d => Sentinel.read source d
  | dateTime, d => DateTime.read source d
  | choice c, d => c.read source d
  | json, d => Json.read source d
  | unit, .null => .ok ()
  | unit, d => d.refuse source .unit

end Scalar
end Sarif
