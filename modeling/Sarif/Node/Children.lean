import Sarif.Node.Basic

/-!
# Children

The children of a node are the nodes that its fields hold, in the order of the fields, of the
slots of a list and of the entries of a map; empty slots hold none. `Node.children` lists them,
`Node.traverse` rebuilds a node from its children one by one, and `Node.tree` is the whole tree
below a node with every node at its place.
-/

namespace Sarif

namespace Slots

/-- The nodes of a list, in order. -/
def children {k : Kind} : Slots k → List AnyNode
  | nil => []
  | empty rest => rest.children
  | full n rest => ⟨k, n⟩ :: rest.children

end Slots

namespace Entries

/-- The nodes of a map, in order. -/
def children {k : Kind} : Entries k → List AnyNode
  | nil => []
  | cons _ n rest => ⟨k, n⟩ :: rest.children

end Entries

/-- The nodes that a value holds, in order. -/
def Value.children : {t : Ty} → Value t → List AnyNode
  | _, .flat _ => []
  | _, .node n => [⟨_, n⟩]
  | _, .nodes s => s.children
  | _, .nodeMap e => e.children

/-- The nodes that a field holds, in order. -/
def FieldValue.children : {t : FieldType} → FieldValue t → List AnyNode
  | _, .required v => v.children
  | _, .absent => []
  | _, .present v => v.children

/-- The nodes that a record holds, in order. -/
def Record.children : {fs : List Field} → Record fs → List AnyNode
  | _, .nil => []
  | _, .cons v rest => v.children ++ rest.children

/-- The children of a node, in order. -/
def Node.children {k : Kind} (n : Node k) : List AnyNode :=
  n.fields.children

/-- A step of a traversal: what a child becomes, and the state after it. -/
abbrev ChildStep (σ : Type) := (k : Kind) → Node k → σ → Node k × σ

section Traverse

variable {σ : Type} (step : ChildStep σ)

/-- Takes a list node by node. -/
def Slots.traverse {k : Kind} : Slots k → σ → Slots k × σ
  | .nil, state => (.nil, state)
  | .empty rest, state =>
    let (rest, state) := Slots.traverse rest state
    (.empty rest, state)
  | .full n rest, state =>
    let (n, state) := step k n state
    let (rest, state) := Slots.traverse rest state
    (.full n rest, state)

/-- Takes a map node by node. -/
def Entries.traverse {k : Kind} : Entries k → σ → Entries k × σ
  | .nil, state => (.nil, state)
  | .cons key n rest, state =>
    let (n, state) := step k n state
    let (rest, state) := Entries.traverse rest state
    (.cons key n rest, state)

/-- Takes a value node by node. -/
def Value.traverse : {t : Ty} → Value t → σ → Value t × σ
  | _, .flat x, state => (.flat x, state)
  | _, .node n, state =>
    let (n, state) := step _ n state
    (.node n, state)
  | _, .nodes s, state =>
    let (s, state) := s.traverse step state
    (.nodes s, state)
  | _, .nodeMap e, state =>
    let (e, state) := e.traverse step state
    (.nodeMap e, state)

/-- Takes a field node by node. -/
def FieldValue.traverse : {t : FieldType} → FieldValue t → σ → FieldValue t × σ
  | _, .required v, state =>
    let (v, state) := v.traverse step state
    (.required v, state)
  | _, .absent, state => (.absent, state)
  | _, .present v, state =>
    let (v, state) := v.traverse step state
    (.present v, state)

/-- Takes a record node by node. -/
def Record.traverse : {fs : List Field} → Record fs → σ → Record fs × σ
  | _, .nil, state => (.nil, state)
  | _, .cons v rest, state =>
    let (v, state) := v.traverse step state
    let (rest, state) := Record.traverse rest state
    (.cons v rest, state)

/-- Rebuilds a node from its children, each of which the step may change, in order. -/
def Node.traverse {k : Kind} (n : Node k) (state : σ) : Node k × σ :=
  let (fields, state) := n.fields.traverse step state
  (.mk fields, state)

end Traverse

/-- A tree with a value at every place. -/
inductive Tree (α : Type) where
  | node (value : α) (children : List (Tree α))

namespace Tree

variable {α β : Type}

/-- The value at the root. -/
def value : Tree α → α
  | node value _ => value

/-- The trees below the root. -/
def children : Tree α → List (Tree α)
  | node _ children => children

mutual

/-- The values of a tree, each before those below it. -/
def preorder : Tree α → List α
  | node value children => value :: preorders children

/-- The values of a run of trees. -/
def preorders : List (Tree α) → List α
  | [] => []
  | t :: rest => preorder t ++ preorders rest

end

mutual

/-- The number of values on the longest way down. -/
def depth : Tree α → Nat
  | node _ children => depths children + 1

/-- The greatest depth of a run of trees. -/
def depths : List (Tree α) → Nat
  | [] => 0
  | t :: rest => max (depth t) (depths rest)

end

mutual

/-- The tree with a function applied to every value. -/
def map (f : α → β) : Tree α → Tree β
  | node value children => node (f value) (maps f children)

/-- A run of trees with a function applied to every value. -/
def maps (f : α → β) : List (Tree α) → List (Tree β)
  | [] => []
  | t :: rest => map f t :: maps f rest

end

end Tree

mutual

/-- The tree below a node, the node at its root. -/
def Node.tree : {k : Kind} → Node k → Tree AnyNode
  | k, .mk fields => .node ⟨k, .mk fields⟩ fields.trees
termination_by structural _ n => n

/-- The trees below the nodes of a value. -/
def Value.trees : {t : Ty} → Value t → List (Tree AnyNode)
  | _, .flat _ => []
  | _, .node n => [n.tree]
  | _, .nodes s => s.trees
  | _, .nodeMap e => e.trees
termination_by structural _ v => v

/-- The trees below the nodes of a field. -/
def FieldValue.trees : {t : FieldType} → FieldValue t → List (Tree AnyNode)
  | _, .required v => v.trees
  | _, .absent => []
  | _, .present v => v.trees
termination_by structural _ v => v

/-- The trees below the nodes of a record. -/
def Record.trees : {fs : List Field} → Record fs → List (Tree AnyNode)
  | _, .nil => []
  | _, .cons v rest => v.trees ++ rest.trees
termination_by structural _ r => r

/-- The trees below the nodes of a list. -/
def Slots.trees : {k : Kind} → Slots k → List (Tree AnyNode)
  | _, .nil => []
  | _, .empty rest => rest.trees
  | _, .full n rest => n.tree :: rest.trees
termination_by structural _ s => s

/-- The trees below the nodes of a map. -/
def Entries.trees : {k : Kind} → Entries k → List (Tree AnyNode)
  | _, .nil => []
  | _, .cons _ n rest => n.tree :: rest.trees
termination_by structural _ e => e

end

/-- How many nodes lie on the longest way down from a node, itself included. -/
def Node.depth {k : Kind} (n : Node k) : Nat :=
  n.tree.depth

end Sarif
