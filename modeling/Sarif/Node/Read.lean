import Sarif.Node.Default

/-!
# Reading nodes

A node is read from an object, whose members may come in any order, or from an array with the
values of its fields in declaration order. Members of unknown names are skipped, a field that
comes twice is refused at its second name, and fields that do not come take their defaults.

The reader walks a document from left to right and stops at the first problem. It is one
definition for all kinds, by recursion on the document.
-/

namespace Sarif

/-- A record that is being read: a field is known once its value has come. -/
inductive Draft : List Field → Type where
  | nil : Draft []
  | cons {f : Field} {fs : List Field} (v : Option (FieldValue f.type)) (rest : Draft fs) :
    Draft (f :: fs)

namespace Draft

/-- The draft of which nothing is known. -/
def blank : (fs : List Field) → Draft fs
  | [] => nil
  | _ :: fs => cons none (blank fs)

/-- What is known of the field at a place. -/
def get : {fs : List Field} → {f : Field} → Draft fs → Place fs f →
    Option (FieldValue f.type)
  | _, _, cons v _, .here => v
  | _, _, cons _ rest, .later p => rest.get p

/-- The draft with the value of the field at a place. -/
def set : {fs : List Field} → {f : Field} → Draft fs → Place fs f → FieldValue f.type →
    Draft fs
  | _, _, cons _ rest, .here, v => cons (some v) rest
  | _, _, cons v rest, .later p, w => cons v (rest.set p w)

/-- The record of a draft, with defaults for what is not known. -/
def finish : {fs : List Field} → Draft fs → Record fs
  | _, nil => .nil
  | f :: _, cons v rest => .cons (v.getD (FieldValue.default f.type)) rest.finish

end Draft

namespace FieldValue

/-- Reads what a field holds from a document, with the reader of values for that document. Null
is the absence of an optional field. -/
def readWith (read : (t : Ty) → Except Problem (Value t)) (d : Document) :
    (t : FieldType) → Except Problem (FieldValue t)
  | .required t => (read t).map required
  | .optional t =>
    match d with
    | .null => .ok absent
    | .broken (.null defect) => .error (.broken defect)
    | _ => (read t).map present

end FieldValue

/-- The node that a value of a node type is. -/
def Value.toNode {k : Kind} : Value (.node k) → Node k
  | .node n => n

/-- Whether a document is null. -/
def Document.isNull : Document → Bool
  | .null => true
  | _ => false

/-- The problem of a positional node with more values than its kind has fields. -/
def Source.tooMany (length : Nat) : Source → Problem
  | text _ => .broken .malformed
  | stored => .mismatch (.tooManyItems length)

mutual

/-- Reads a value of a type. -/
def Value.read (source : Source) (t : Ty) (d : Document) : Except Problem (Value t) :=
  match d, t with
  | d, .flat f => (Flat.read source f d).map .flat
  | .object members ending, .node k => do
    let inner ← source.enter
    let draft ← Draft.readMembers inner (Draft.blank k.fields) members
    Problem.guard ending.defect?
    return .node (.mk draft.finish)
  | .array items defect, .node k => do
    let inner ← source.enter
    let draft ← Draft.readItems inner items.length k.fields items
    Problem.guard defect
    return .node (.mk draft.finish)
  | .array items defect, .nodes k => do
    let inner ← source.enter
    let slots ← Slots.read inner k items
    Problem.guard defect
    return .nodes (Slots.ofList slots)
  | .object members ending, .nodeMap k => do
    let inner ← source.enter
    let entries ← Entries.read inner k members
    Problem.guard ending.defect?
    return .nodeMap (Entries.ofDict (Dict.ofList entries))
  | d, .node k => d.refuse source (.node k)
  | d, .nodes _ => d.refuse source .sequence
  | d, .nodeMap _ => d.refuse source .map

/-- Reads the members of an object into a draft. -/
def Draft.readMembers (source : Source) {fs : List Field} (draft : Draft fs) :
    List (Literal × Document) → Except Problem (Draft fs)
  | [] => .ok draft
  | (name, d) :: rest => do
    let name ← name.read
    match Place.find? name fs with
    | none =>
      Problem.guard d.skip
      Draft.readMembers source draft rest
    | some ⟨f, place⟩ =>
      if (draft.get place).isSome then throw (.mismatch (.repeatedField name))
      let v ← FieldValue.readWith (fun t => Value.read source t d) d f.type
      Draft.readMembers source (draft.set place v) rest

/-- Reads the items of an array as the first fields of a draft; `total` is their number. -/
def Draft.readItems (source : Source) (total : Nat) (fs : List Field) :
    List Document → Except Problem (Draft fs)
  | [] => .ok (Draft.blank fs)
  | d :: rest =>
    match fs with
    | [] => .error (source.tooMany total)
    | f :: fs => do
      let v ← FieldValue.readWith (fun t => Value.read source t d) d f.type
      return .cons (some v) (← Draft.readItems source total fs rest)

/-- Reads the slots of a list of nodes: null leaves a slot empty. -/
def Slots.read (source : Source) (k : Kind) :
    List Document → Except Problem (List (Option (Node k)))
  | [] => .ok []
  | d :: rest => do
    let slot ← if d.isNull then pure none
      else (Value.read source (.node k) d).map (some ·.toNode)
    return slot :: (← Slots.read source k rest)

/-- Reads the entries of a map of nodes. -/
def Entries.read (source : Source) (k : Kind) :
    List (Literal × Document) → Except Problem (List (String × Node k))
  | [] => .ok []
  | (name, d) :: rest => do
    let name ← name.read
    let n ← Value.read source (.node k) d
    return (name, n.toNode) :: (← Entries.read source k rest)

end

/-- Reads a field by itself. -/
def FieldValue.read (source : Source) (t : FieldType) (d : Document) :
    Except Problem (FieldValue t) :=
  readWith (fun t => Value.read source t d) d t

/-- Reads what a text holds: its document, after which only blanks may follow. -/
def FieldType.load (t : FieldType) (text : String) : Except Problem (FieldValue t) := do
  let (document, trailing) := Document.ofText text.toList
  let v ← FieldValue.read .start t document
  if trailing then throw (.broken .malformed)
  return v

/-- Reads a node from a text. -/
def Node.load (k : Kind) (text : String) : Except Problem (Node k) := do
  let v ← FieldType.load (.required (.node k)) text
  return v.content

/-- Reads a value of a type from a stored value. -/
def FieldType.ofJson (t : FieldType) (value : Json) : Except Problem (FieldValue t) :=
  FieldValue.read .stored t value.document

/-- The stored value that a document of this library is kept as. -/
def Document.toJson (d : Document) : Json :=
  match Json.read .stored d with
  | .ok value => value
  | .error _ => .null

end Sarif
