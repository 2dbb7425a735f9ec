import Sarif.Node.Basic

/-!
# The written form of nodes

A node is written as an object with its fields in declaration order. Absent fields and unset
sentinels are left out; everything else is written, empty strings, empty lists and default nodes
included. Empty slots of lists are written as null.
-/

namespace Sarif

/-- Whether a value is an unset sentinel. -/
def Value.isUnset : {t : Ty} → Value t → Bool
  | .flat (.scalar .sentinel), .flat x => Sentinel.isUnset x
  | _, _ => false

mutual

/-- The document of a node. -/
def Node.document : {k : Kind} → Node k → Document
  | _, .mk fields => .object fields.members .closed
termination_by structural _ n => n

/-- The document of a value. -/
def Value.document : {t : Ty} → Value t → Document
  | _, .flat x => Flat.document _ x
  | _, .node n => n.document
  | _, .nodes s => .array s.documents none
  | _, .nodeMap e => .object e.members .closed
termination_by structural _ n => n

/-- The document of what a field holds, if it is written. -/
def FieldValue.document? : {t : FieldType} → FieldValue t → Option Document
  | _, .required v => if v.isUnset then none else some v.document
  | _, .absent => none
  | _, .present v => some v.document
termination_by structural _ n => n

/-- The members of an object that holds a record. -/
def Record.members : {fs : List Field} → Record fs → List (Literal × Document)
  | _, .nil => []
  | f :: _, .cons v rest =>
    match v.document? with
    | some d => (Literal.ofString f.name, d) :: rest.members
    | none => rest.members
termination_by structural _ n => n

/-- The items of an array that holds a list of nodes. -/
def Slots.documents : {k : Kind} → Slots k → List Document
  | _, .nil => []
  | _, .empty rest => .null :: rest.documents
  | _, .full n rest => n.document :: rest.documents
termination_by structural _ n => n

/-- The members of an object that holds a map of nodes. -/
def Entries.members : {k : Kind} → Entries k → List (Literal × Document)
  | _, .nil => []
  | _, .cons key n rest => (Literal.ofString key, n.document) :: rest.members
termination_by structural _ n => n

end

/-- The text of a node. -/
def Node.text {k : Kind} (n : Node k) : String :=
  n.document.render

/-- The document of what a field holds when it stands by itself; nothing is written as null. -/
def FieldValue.document : {t : FieldType} → FieldValue t → Document
  | _, .required v => v.document
  | _, .absent => .null
  | _, .present v => v.document

end Sarif
