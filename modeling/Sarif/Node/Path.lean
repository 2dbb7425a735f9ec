import Sarif.Node.Children

/-!
# Paths

A path leads from a node down to one below it by the indexes of children. `descendant?` looks a
node up and `modifyAt` changes it in place; everything off the path stays as it is.
-/

namespace Sarif
namespace Node

variable {k : Kind}

/-- A change to a node of any kind. -/
abbrev Change := (k : Kind) → Node k → Node k

/-- The child at an index. -/
def child? (n : Node k) (index : Nat) : Option AnyNode :=
  n.children[index]?

/-- The node at a path. -/
def descendant? : List Nat → AnyNode → Option AnyNode
  | [], x => some x
  | index :: path, ⟨_, n⟩ => (n.child? index).bind (descendant? path)

/-- One step of the traversal that changes the child at `index`: the state counts children. -/
def changeAt (index : Nat) (change : Change) : ChildStep Nat :=
  fun k n count => (if count = index then change k n else n, count + 1)

/-- The node with a change to the child at an index, if there is one. -/
def modifyChild (index : Nat) (change : Change) (n : Node k) : Node k :=
  (n.traverse (changeAt index change) 0).1

/-- The node with a change to the node at a path, if there is one. -/
def modifyAt : List Nat → Change → Change
  | [], change => change
  | index :: path, change => fun _ n => n.modifyChild index (modifyAt path change)

/-- The change that puts a copy of `x` in the place of a node of its kind. -/
def putting (x : AnyNode) : Change :=
  fun k n => if same : x.1 = k then same ▸ x.2 else n

/-- The node with a copy of `x` at a path, if the node there is of the same kind. -/
def replaceAt (path : List Nat) (x : AnyNode) (n : Node k) : Node k :=
  modifyAt path (putting x) k n

end Node
end Sarif
