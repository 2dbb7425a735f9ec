import Sarif.Node.Basic

/-!
# Default nodes

A field that a document leaves out takes the default of its type. An optional field is absent, a
required node is the default node of its kind, and so on down; `Kind.layer` bounds how far down,
and `Kind.fields_below` says that the required nodes of a kind lie in lower layers.
-/

namespace Sarif

/-- How many required nodes may stand below one another under a node of the kind. -/
def Kind.layer : Kind → Nat
  | .run | .conversion => 2
  | .tool | .attachment | .artifactChange | .notification | .result | .replacement
  | .configurationOverride | .reportingDescriptorRelationship => 1
  | _ => 0

/-- Whether a field, if it requires a node, requires one of a layer below `layer`. -/
def FieldType.below (layer : Nat) : FieldType → Bool
  | .required (.node k) => decide (k.layer < layer)
  | _ => true

/-- The required nodes of a kind lie in lower layers. -/
theorem Kind.fields_below (k : Kind) : (k.fields.all fun f => f.type.below k.layer) = true := by
  cases k <;> rfl

/-- The default of a field, from the default nodes of the layers below. -/
def FieldValue.defaultWith {layer : Nat} (node : (k : Kind) → k.layer < layer → Node k) :
    (t : FieldType) → t.below layer = true → FieldValue t
  | .optional _, _ => absent
  | .required (.flat f), _ => required (.flat f.default)
  | .required (.node k), below => required (.node (node k (of_decide_eq_true below)))
  | .required (.nodes _), _ => required (.nodes .nil)
  | .required (.nodeMap _), _ => required (.nodeMap .nil)

/-- The defaults of a list of fields, from the default nodes of the layers below. -/
def Record.defaultWith {layer : Nat} (node : (k : Kind) → k.layer < layer → Node k) :
    (fs : List Field) → (fs.all fun f => f.type.below layer) = true → Record fs
  | [], _ => nil
  | f :: fs, below =>
    have both : f.type.below layer = true ∧ (fs.all fun f => f.type.below layer) = true := by
      simpa using below
    cons (FieldValue.defaultWith node f.type both.1) (defaultWith node fs both.2)

/-- The default node of a kind of a layer below `layer`. -/
def Node.defaultBelow : (layer : Nat) → (k : Kind) → k.layer < layer → Node k
  | layer + 1, k, below =>
    mk (Record.defaultWith
      (fun k' below' => defaultBelow layer k' (Nat.lt_of_lt_of_le below' (Nat.le_of_lt_succ below)))
      k.fields k.fields_below)

/-- The node of a kind that holds nothing but defaults. -/
def Node.default (k : Kind) : Node k :=
  defaultBelow (k.layer + 1) k (Nat.lt_succ_self _)

/-- The default of a type. -/
def Value.default : (t : Ty) → Value t
  | .flat f => flat f.default
  | .node k => node (Node.default k)
  | .nodes _ => nodes .nil
  | .nodeMap _ => nodeMap .nil

/-- The default of a field. -/
def FieldValue.default : (t : FieldType) → FieldValue t
  | .required t => required (Value.default t)
  | .optional _ => absent

end Sarif
