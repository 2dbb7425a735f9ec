import Sarif.Node.Basic

/-!
# Equality of nodes

Two nodes are the same when their fields are: lists slot by slot, empty slots included, maps by
what they hold under each key. The order of a map does not count, and the two zeros of a number
are equal; everything else that a document can show does count.
-/

namespace Sarif

namespace Entries

/-- The number of entries. -/
def length {k : Kind} : Entries k → Nat
  | nil => 0
  | cons _ _ rest => rest.length + 1

/-- The first node under a key. -/
def lookup {k : Kind} (key : String) : Entries k → Option (Node k)
  | nil => none
  | cons other n rest => if other = key then some n else rest.lookup key

end Entries

mutual

/-- Whether two nodes of a kind are the same. -/
def Node.same : {k : Kind} → Node k → Node k → Bool
  | _, .mk fields, m => match m with
    | .mk others => fields.same others
termination_by structural _ n => n

/-- Whether two values of a type are the same. -/
def Value.same : {t : Ty} → Value t → Value t → Bool
  | _, .flat x, w => match w with
    | .flat y => Flat.same _ x y
  | _, .node n, w => match w with
    | .node m => n.same m
  | _, .nodes s, w => match w with
    | .nodes t => s.same t
  | _, .nodeMap e, w => match w with
    | .nodeMap d => e.length == d.length && e.subsumedBy d
termination_by structural _ v => v

/-- Whether two fields hold the same. -/
def FieldValue.same : {t : FieldType} → FieldValue t → FieldValue t → Bool
  | _, .required v, w => match w with
    | .required u => v.same u
  | _, .absent, w => match w with
    | .absent => true
    | .present _ => false
  | _, .present v, w => match w with
    | .present u => v.same u
    | .absent => false
termination_by structural _ v => v

/-- Whether two records are the same, field by field. -/
def Record.same : {fs : List Field} → Record fs → Record fs → Bool
  | _, .nil, _ => true
  | _, .cons v rest, w => match w with
    | .cons u more => v.same u && rest.same more
termination_by structural _ r => r

/-- Whether two lists are the same, slot by slot. -/
def Slots.same : {k : Kind} → Slots k → Slots k → Bool
  | _, .nil, w => match w with
    | .nil => true
    | _ => false
  | _, .empty rest, w => match w with
    | .empty more => rest.same more
    | _ => false
  | _, .full n rest, w => match w with
    | .full m more => n.same m && rest.same more
    | _ => false
termination_by structural _ s => s

/-- Whether every entry is found, with the same node, among other entries. -/
def Entries.subsumedBy : {k : Kind} → Entries k → Entries k → Bool
  | _, .nil, _ => true
  | _, .cons key n rest, d =>
    (match d.lookup key with
      | some m => n.same m
      | none => false) && rest.subsumedBy d
termination_by structural _ e => e

end

/-- Equality of nodes with their kinds: nodes of different kinds are never the same. -/
def AnyNode.same (x y : AnyNode) : Bool :=
  if h : x.1 = y.1 then (h ▸ x.2).same y.2 else false

end Sarif
