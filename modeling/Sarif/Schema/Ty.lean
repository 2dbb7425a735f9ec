import Sarif.Schema.Kind
import Sarif.Schema.Choice
import Sarif.Number.Width

/-!
# Types of fields

What a field may hold. A flat type holds no node: a scalar, an array of scalars, a list of
scalars with empty slots, or an ordered map of scalars. A `Ty` is a flat type, a node, a list
of nodes with empty slots, or an ordered map of nodes. A field is required, and then always
has a value, or optional, and then may be absent.
-/

namespace Sarif

/-- The type of a single value. -/
inductive Scalar where
  | text
  | boolean
  | integer (width : Width)
  | number
  | sentinel
  | dateTime
  | choice (choice : Choice)
  /-- Any JSON value. -/
  | json
  /-- The null value and nothing else. -/
  | unit
  deriving DecidableEq, Repr

/-- The type of a value that holds no node. -/
inductive Flat where
  | scalar (type : Scalar)
  | array (type : Scalar)
  /-- A list whose slots may be empty. -/
  | slots (type : Scalar)
  /-- An ordered map. -/
  | map (type : Scalar)
  deriving DecidableEq, Repr

/-- The type of a value. -/
inductive Ty where
  | flat (type : Flat)
  | node (kind : Kind)
  /-- A list of nodes whose slots may be empty. -/
  | nodes (kind : Kind)
  /-- An ordered map of nodes. -/
  | nodeMap (kind : Kind)
  deriving DecidableEq, Repr

namespace Ty

/-- Strings. -/
abbrev text : Ty := flat (.scalar .text)

/-- Truth values. -/
abbrev boolean : Ty := flat (.scalar .boolean)

/-- Signed 64-bit integers. -/
abbrev integer : Ty := flat (.scalar (.integer .signed64))

/-- Floating-point numbers. -/
abbrev number : Ty := flat (.scalar .number)

/-- Indexes, counts and offsets that may be unset. -/
abbrev sentinel : Ty := flat (.scalar .sentinel)

/-- Dates with a time of day. -/
abbrev dateTime : Ty := flat (.scalar .dateTime)

/-- The values of a choice. -/
abbrev choice (c : Choice) : Ty := flat (.scalar (.choice c))

/-- Arrays of values of a choice. -/
abbrev choices (c : Choice) : Ty := flat (.array (.choice c))

/-- Arrays of strings. -/
abbrev texts : Ty := flat (.array .text)

/-- Ordered maps of strings. -/
abbrev textMap : Ty := flat (.map .text)

/-- Property bags: ordered maps of JSON values. -/
abbrev bag : Ty := flat (.map .json)

end Ty

/-- The type of a field. -/
inductive FieldType where
  | required (type : Ty)
  | optional (type : Ty)
  deriving DecidableEq, Repr

/-- A field of a node: its name on the wire and its type. -/
structure Field where
  name : String
  type : FieldType
  deriving DecidableEq, Repr

end Sarif
