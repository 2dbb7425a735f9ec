import Sarif.Node.Children

/-!
# Walks

A visitor goes through a tree of nodes from the root down, a node before its children and
children in order. It is called for every node it comes to, and once more, with the node at its
own type, for results, locations, artifact locations, regions and messages. Each call says
whether to go on: a call for a node that does not leaves out the typed call and everything below
the node, a typed call that does not leaves out what is below.

An editor is a visitor that may change the node it is called with. It goes on into the children of
what the node has become, as deep as the tree was when it set out: an edit that puts children into
its nodes for ever would otherwise never end.
-/

namespace Sarif

/-- What a visitor does at each call: the state after it, and whether to go on. -/
structure Visitor (σ : Type) where
  node : AnyNode → σ → σ × Bool
  result : Node .result → σ → σ × Bool
  location : Node .location → σ → σ × Bool
  artifactLocation : Node .artifactLocation → σ → σ × Bool
  region : Node .region → σ → σ × Bool
  message : Node .message → σ → σ × Bool

namespace Visitor

variable {σ : Type}

/-- The visitor that does nothing and goes on everywhere. -/
def idle : Visitor σ where
  node _ state := (state, true)
  result _ state := (state, true)
  location _ state := (state, true)
  artifactLocation _ state := (state, true)
  region _ state := (state, true)
  message _ state := (state, true)

/-- The typed call for a node; kinds without one go on. -/
def typed (v : Visitor σ) (x : AnyNode) (state : σ) : σ × Bool :=
  match x with
  | ⟨.result, n⟩ => v.result n state
  | ⟨.location, n⟩ => v.location n state
  | ⟨.artifactLocation, n⟩ => v.artifactLocation n state
  | ⟨.region, n⟩ => v.region n state
  | ⟨.message, n⟩ => v.message n state
  | _ => (state, true)

/-- The calls for one node: the state after them, and whether to go on into its children. -/
def enter (v : Visitor σ) (x : AnyNode) (state : σ) : σ × Bool :=
  let (state, onward) := v.node x state
  if onward then v.typed x state else (state, false)

mutual

/-- Goes through a tree. -/
def walkTree (v : Visitor σ) : Tree AnyNode → σ → σ
  | .node x below, state =>
    let (state, onward) := v.enter x state
    if onward then walkTrees v below state else state

/-- Goes through a run of trees. -/
def walkTrees (v : Visitor σ) : List (Tree AnyNode) → σ → σ
  | [], state => state
  | t :: rest, state => walkTrees v rest (walkTree v t state)

end

/-- Goes through the tree below a node. -/
def walk {k : Kind} (v : Visitor σ) (n : Node k) (state : σ) : σ :=
  v.walkTree n.tree state

end Visitor

/-- What a call of an editor gives: the node as it has become, the state after the call, and
whether to go on. -/
structure Edited (k : Kind) (σ : Type) where
  node : Node k
  state : σ
  onward : Bool

/-- What an editor does at each call. -/
structure Editor (σ : Type) where
  node : (k : Kind) → Node k → σ → Edited k σ
  result : Node .result → σ → Edited .result σ
  location : Node .location → σ → Edited .location σ
  artifactLocation : Node .artifactLocation → σ → Edited .artifactLocation σ
  region : Node .region → σ → Edited .region σ
  message : Node .message → σ → Edited .message σ

namespace Editor

variable {σ : Type}

/-- The editor that changes nothing and goes on everywhere. -/
def idle : Editor σ where
  node _ n state := ⟨n, state, true⟩
  result n state := ⟨n, state, true⟩
  location n state := ⟨n, state, true⟩
  artifactLocation n state := ⟨n, state, true⟩
  region n state := ⟨n, state, true⟩
  message n state := ⟨n, state, true⟩

/-- The typed call for a node; kinds without one go on. -/
def typed (e : Editor σ) (k : Kind) (n : Node k) (state : σ) : Edited k σ :=
  match k, n with
  | .result, n => e.result n state
  | .location, n => e.location n state
  | .artifactLocation, n => e.artifactLocation n state
  | .region, n => e.region n state
  | .message, n => e.message n state
  | _, n => ⟨n, state, true⟩

/-- The calls for one node. -/
def enter (e : Editor σ) (k : Kind) (n : Node k) (state : σ) : Edited k σ :=
  let first := e.node k n state
  if first.onward then e.typed k first.node first.state else first

/-- Goes through a tree down to `depth` nodes below one another. What is deeper stays as it is; an
edit can have put it there. -/
def editWithin (e : Editor σ) : (depth : Nat) → ChildStep σ
  | 0, _, n, state => (n, state)
  | depth + 1, k, n, state =>
    let entered := e.enter k n state
    if entered.onward then entered.node.traverse (editWithin e depth) entered.state
    else (entered.node, entered.state)

/-- Goes through the tree below a node. The bound is the depth of the tree when the editor sets
out, so only nodes that an edit adds below that depth are left out; an edit that keeps the
children of its nodes, or takes some away, never meets the bound. -/
def edit {k : Kind} (e : Editor σ) (n : Node k) (state : σ) : Node k × σ :=
  e.editWithin n.depth k n state

end Editor

/-- The editor that makes the calls of a visitor and changes nothing. -/
def Visitor.toEditor {σ : Type} (v : Visitor σ) : Editor σ where
  node k n state := ⟨n, (v.node ⟨k, n⟩ state).1, (v.node ⟨k, n⟩ state).2⟩
  result n state := ⟨n, (v.result n state).1, (v.result n state).2⟩
  location n state := ⟨n, (v.location n state).1, (v.location n state).2⟩
  artifactLocation n state :=
    ⟨n, (v.artifactLocation n state).1, (v.artifactLocation n state).2⟩
  region n state := ⟨n, (v.region n state).1, (v.region n state).2⟩
  message n state := ⟨n, (v.message n state).1, (v.message n state).2⟩

end Sarif
