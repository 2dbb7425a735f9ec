import Mathlib.Data.List.Basic
import Sarif.Node.Path

/-!
# The tree below a node

`Node.tree` follows the fields of a node. `Node.tree_eq` says what it comes to: the node, with the
trees below its children in their order. So the value at a path of the tree is the node that the
path leads to (`Node.at?_tree`), and what goes through trees can be compared with what goes through
children.
-/

namespace Sarif

namespace Tree

variable {α : Type}

/-- The value at a path of indexes. -/
def at? : List Nat → Tree α → Option α
  | [], t => some t.value
  | index :: path, t => t.children[index]?.bind (at? path)

/-- The value at a path whose first index is that of a tree in a run. -/
def atOf? (ts : List (Tree α)) : List Nat → Option α
  | [] => none
  | index :: path => ts[index]?.bind (at? path)

/-- The values of a run of trees are those of its trees. -/
theorem preorders_eq_flatMap (ts : List (Tree α)) : preorders ts = ts.flatMap preorder := by
  induction ts with
  | nil => rfl
  | cons t rest inductionHypothesis => rw [preorders, inductionHypothesis, List.flatMap_cons]

/-- No tree of a run is deeper than the run. -/
theorem depth_le_depths {ts : List (Tree α)} {t : Tree α} (among : t ∈ ts) :
    t.depth ≤ depths ts := by
  induction ts with
  | nil => cases among
  | cons first rest inductionHypothesis =>
      rw [depths]
      cases among with
      | head => exact Nat.le_max_left ..
      | tail _ later => exact Nat.le_trans (inductionHypothesis later) (Nat.le_max_right ..)

end Tree

section Trees

variable {k : Kind}

/-- The trees of a list are those below its nodes. -/
theorem Slots.trees_eq : (s : Slots k) → s.trees = s.children.map fun child => child.2.tree
  | .nil => rfl
  | .empty rest => trees_eq rest
  | .full n rest => congrArg (n.tree :: ·) (trees_eq rest)

/-- The trees of a map are those below its nodes. -/
theorem Entries.trees_eq : (e : Entries k) → e.trees = e.children.map fun child => child.2.tree
  | .nil => rfl
  | .cons _ n rest => congrArg (n.tree :: ·) (trees_eq rest)

/-- The trees of a value are those below its nodes. -/
theorem Value.trees_eq {t : Ty} (v : Value t) :
    v.trees = v.children.map fun child => child.2.tree := by
  cases v with
  | flat x => rfl
  | node n => rfl
  | nodes s => exact s.trees_eq
  | nodeMap e => exact e.trees_eq

/-- The trees of a field are those below its nodes. -/
theorem FieldValue.trees_eq {t : FieldType} (v : FieldValue t) :
    v.trees = v.children.map fun child => child.2.tree := by
  cases v with
  | required v => exact v.trees_eq
  | absent => rfl
  | present v => exact v.trees_eq

/-- The trees of a record are those below its nodes. -/
theorem Record.trees_eq : {fs : List Field} → (r : Record fs) →
    r.trees = r.children.map fun child => child.2.tree
  | _, .nil => rfl
  | _, .cons v rest => by
      rw [trees, children, List.map_append, v.trees_eq, trees_eq rest]

namespace Node

/-- The tree below a node is the node with the trees below its children. -/
theorem tree_eq (n : Node k) :
    n.tree = .node ⟨k, n⟩ (n.children.map fun child => child.2.tree) := by
  obtain ⟨fields⟩ := n
  exact congrArg (Tree.node ⟨k, .mk fields⟩) fields.trees_eq

/-- At a path of the tree below a node stands the node that the path leads to. -/
theorem at?_tree (path : List Nat) (x : AnyNode) : x.2.tree.at? path = descendant? path x := by
  induction path generalizing x with
  | nil =>
      rw [tree_eq]
      rfl
  | cons index path inductionHypothesis =>
      rw [tree_eq, Tree.at?, Tree.children, List.getElem?_map, Option.bind_map]
      exact congrArg _ (funext inductionHypothesis)

/-- The tree below a child is less deep than the one below the node. -/
theorem depth_lt_of_child (n : Node k) {child : AnyNode} (among : child ∈ n.children) :
    child.2.depth < n.depth := by
  rw [depth, depth, tree_eq n, Tree.depth]
  exact Nat.lt_succ_of_le (Tree.depth_le_depths (List.mem_map_of_mem among))

/-- The nodes of a tree in preorder: the root and then those below its children. -/
theorem preorder_tree (n : Node k) :
    n.tree.preorder = ⟨k, n⟩ :: n.children.flatMap fun child => child.2.tree.preorder := by
  rw [tree_eq, Tree.preorder, Tree.preorders_eq_flatMap, List.flatMap_map]

/-- The nodes of the tree below a node are those that paths lead to. -/
theorem mem_preorder_tree_iff {x y : AnyNode} :
    y ∈ x.2.tree.preorder ↔ ∃ path, descendant? path x = some y := by
  constructor
  · intro among
    -- The children of a node lie less deep than the node itself.
    induction bound : x.2.depth using Nat.strongRecOn generalizing x with
    | ind bound inductionHypothesis =>
        subst bound
        rw [preorder_tree, List.mem_cons, List.mem_flatMap] at among
        rcases among with rfl | ⟨child, here, below⟩
        · exact ⟨[], rfl⟩
        · obtain ⟨path, leads⟩ :=
            inductionHypothesis _ (x.2.depth_lt_of_child here) below rfl
          obtain ⟨index, found⟩ := List.getElem?_of_mem here
          exact ⟨index :: path, Option.bind_eq_some_iff.mpr ⟨child, found, leads⟩⟩
  · rintro ⟨path, leads⟩
    induction path generalizing x with
    | nil =>
        obtain rfl := Option.some.inj leads
        rw [preorder_tree]
        exact List.mem_cons_self
    | cons index path inductionHypothesis =>
        obtain ⟨child, found, further⟩ := Option.bind_eq_some_iff.mp leads
        rw [preorder_tree]
        refine List.mem_cons_of_mem _
          (List.mem_flatMap.mpr ⟨child, ?_, inductionHypothesis further⟩)
        exact List.mem_of_getElem? found

end Node
end Trees
end Sarif
