import Sarif.Node.Basic

/-!
# Structural hashes of nodes

A node folds its fields into the seed in declaration order. An absent field leaves the running
hash alone, a list of nodes folds in slot by slot, a map of nodes as the exclusive or of its
entries, and everything else as one element.
-/

namespace Sarif

mutual

/-- The structural hash of a node. -/
def Node.hash : {k : Kind} → Node k → HashCode
  | _, .mk fields => fields.fold HashCode.seed
termination_by structural _ n => n

/-- Folds a value into a running hash. -/
def Value.fold : {t : Ty} → Value t → HashCode → HashCode
  | _, .flat x, running => Flat.fold running _ x
  | _, .node n, running => HashCode.combine running n.hash
  | _, .nodes s, running => s.fold running
  | _, .nodeMap e, running => HashCode.combine running (e.fold 0)
termination_by structural _ n => n

/-- Folds what a field holds into a running hash. -/
def FieldValue.fold : {t : FieldType} → FieldValue t → HashCode → HashCode
  | _, .required v, running => v.fold running
  | _, .absent, running => running
  | _, .present v, running => v.fold running
termination_by structural _ n => n

/-- Folds a record into a running hash, field by field. -/
def Record.fold : {fs : List Field} → Record fs → HashCode → HashCode
  | _, .nil, running => running
  | _, .cons v rest, running => rest.fold (v.fold running)
termination_by structural _ n => n

/-- Folds a list into a running hash: every slot takes its place, a full one adds its hash. -/
def Slots.fold : {k : Kind} → Slots k → HashCode → HashCode
  | _, .nil, running => running
  | _, .empty rest, running => rest.fold (running * 31)
  | _, .full n rest, running => rest.fold (HashCode.combine (running * 31) n.hash)
termination_by structural _ n => n

/-- Lays the entries of a map over a running hash. -/
def Entries.fold : {k : Kind} → Entries k → HashCode → HashCode
  | _, .nil, running => running
  | _, .cons key n rest, running => rest.fold (running ^^^ HashCode.ofString key ^^^ n.hash)
termination_by structural _ n => n

end

/-- The structural hash of a value by itself. -/
def Value.hash : {t : Ty} → Value t → HashCode
  | _, .flat x => Flat.hash _ x
  | _, .node n => n.hash
  | _, .nodes s => s.fold HashCode.seed
  | _, .nodeMap e => e.fold 0

/-- The structural hash of what a field holds; nothing hashes to zero. -/
def FieldValue.hash : {t : FieldType} → FieldValue t → HashCode
  | _, .required v => v.hash
  | _, .absent => 0
  | _, .present v => v.hash

end Sarif
