import Mathlib.Data.List.Basic
import Sarif.Build
import Sarif.GraphSearch
import Sarif.Proofs.NodeList
import Sarif.Proofs.Node.Tree
import Sarif.Proofs.Walk.Visits

/-!
# Searching graphs and walking them

A search through a graph looks at nothing but the nodes that are nested in it, while a walk comes
to everything below the graph. Edges, locations and messages have no nodes of a graph below them
(`graphNodes_of_graphless`), so both come to the same nodes in the same order, and a search finds
the first of its id that a walk comes to (`Graph.find?_first_visited`).
-/

namespace Sarif

/-! ## Walks that go on everywhere -/

/-- The node of a call of the hook for nodes of every kind. -/
def Call.visited? (call : Call) : Option AnyNode :=
  if call.hook = .node then some call.node else none

namespace Visitor

variable {σ : Type} {v : Visitor σ}

/-- A visitor goes on below every node, whatever it has seen before. -/
def GoesOn (v : Visitor σ) : Prop :=
  ∀ x state, (v.enter x state).2 = true

/-- The nodes that a walk comes to, in order: those that the hook for nodes is called with. -/
def visited {k : Kind} (v : Visitor σ) (n : Node k) (state : σ) : List AnyNode :=
  (v.recording.walk n (state, [])).2.filterMap Call.visited?

/-- A visit comes to one node. -/
theorem visited?_calls (x : AnyNode) (state : σ) :
    (v.visit x state).calls.filterMap Call.visited? = [x] := by
  obtain ⟨k, n⟩ := x
  cases onward : (v.node ⟨k, n⟩ state).2 with
  | false => simp [visit, Visit.calls, Call.visited?, onward]
  | true =>
    cases k <;> simp [visit, Visit.calls, Visit.typedCalls, Hook.typed?, Call.visited?, onward]

mutual

/-- A walk that goes on everywhere comes to the nodes of a tree in preorder. -/
theorem walkTree_of_goesOn (goesOn : v.GoesOn) : (t : Tree AnyNode) → (state : σ) →
    (before : List Call) → ∃ calls,
      v.recording.walkTree t (state, before) = (v.walkTree t state, before ++ calls) ∧
        calls.filterMap Call.visited? = t.preorder
  | .node x below, state, before => by
      have onward : (v.enter x state).2 = true := goesOn x state
      obtain ⟨calls, walked, nodes⟩ := walkTrees_of_goesOn goesOn below (v.enter x state).1
        (before ++ (v.visit x state).calls)
      refine ⟨(v.visit x state).calls ++ calls, ?_, ?_⟩
      · simp [walkTree, enter_recording, onward, walked]
      · rw [List.filterMap_append, visited?_calls, nodes, Tree.preorder, List.singleton_append]

/-- A walk that goes on everywhere comes to the nodes of a run of trees in preorder. -/
theorem walkTrees_of_goesOn (goesOn : v.GoesOn) : (ts : List (Tree AnyNode)) → (state : σ) →
    (before : List Call) → ∃ calls,
      v.recording.walkTrees ts (state, before) = (v.walkTrees ts state, before ++ calls) ∧
        calls.filterMap Call.visited? = Tree.preorders ts
  | [], state, before => ⟨[], by simp [walkTrees], rfl⟩
  | t :: rest, state, before => by
      obtain ⟨calls, walked, nodes⟩ := walkTree_of_goesOn goesOn t state before
      obtain ⟨more, onward, others⟩ := walkTrees_of_goesOn goesOn rest (v.walkTree t state)
        (before ++ calls)
      refine ⟨calls ++ more, ?_, ?_⟩
      · rw [walkTrees, walkTrees, walked, onward, List.append_assoc]
      · rw [List.filterMap_append, nodes, others, Tree.preorders]

end

/-- A walk that goes on everywhere comes to the nodes of the tree below a node in preorder. -/
theorem visited_eq_preorder (goesOn : v.GoesOn) {k : Kind} (n : Node k) (state : σ) :
    v.visited n state = n.tree.preorder := by
  obtain ⟨calls, walked, nodes⟩ := walkTree_of_goesOn goesOn n.tree state []
  rw [visited, walk, walked, List.nil_append, nodes]

end Visitor

/-! ## Where nodes of graphs are -/

/-- The kind of the nodes that a value of a type may hold. -/
def Ty.kind? : Ty → Option Kind
  | .flat _ => none
  | .node k => some k
  | .nodes k => some k
  | .nodeMap k => some k

/-- The kind of the nodes that a field may hold. -/
def FieldType.kind? : FieldType → Option Kind
  | .required t => t.kind?
  | .optional t => t.kind?

/-- Whether there can be no node of a graph below a node of the kind. -/
def Kind.graphless : Kind → Bool
  | .sarifLog | .externalProperties | .run | .result | .graph | .node => false
  | _ => true

/-- Whether a kind is that of nodes of graphs, or graphless. -/
def Kind.graphNodeOrGraphless (k : Kind) : Bool :=
  k = .node || k.graphless

/-- The fields of a graphless kind hold nodes of graphless kinds. -/
theorem Kind.graphless_fields {k : Kind} (graphless : k.graphless = true) :
    (k.fields.all fun f => f.type.kind?.all Kind.graphless) = true := by
  cases k <;> first | rfl | cases graphless

section Children

variable {k : Kind} {child : AnyNode}

/-- The nodes of a list are of its kind. -/
theorem Slots.kind_of_mem_children : (s : Slots k) → child ∈ s.children → child.1 = k
  | .empty rest, among => kind_of_mem_children rest among
  | .full _ rest, among => by
      rcases List.mem_cons.mp among with rfl | later
      · rfl
      · exact kind_of_mem_children rest later

/-- The nodes of a map are of its kind. -/
theorem Entries.kind_of_mem_children : (e : Entries k) → child ∈ e.children → child.1 = k
  | .cons _ _ rest, among => by
      rcases List.mem_cons.mp among with rfl | later
      · rfl
      · exact kind_of_mem_children rest later

/-- The nodes of a value are of the kind of its type. -/
theorem Value.kind_of_mem_children {t : Ty} (v : Value t) (among : child ∈ v.children) :
    t.kind? = some child.1 := by
  cases v with
  | flat x => cases among
  | node n => rw [List.mem_singleton.mp among, Ty.kind?]
  | nodes s => rw [s.kind_of_mem_children among, Ty.kind?]
  | nodeMap e => rw [e.kind_of_mem_children among, Ty.kind?]

/-- The nodes of a field are of the kind of its type. -/
theorem FieldValue.kind_of_mem_children {t : FieldType} (v : FieldValue t)
    (among : child ∈ v.children) : t.kind? = some child.1 := by
  cases v with
  | required v => exact v.kind_of_mem_children among
  | absent => cases among
  | present v => exact v.kind_of_mem_children among

/-- The nodes of a record are of the kinds of its fields. -/
theorem Record.kind_of_mem_children : {fs : List Field} → (r : Record fs) →
    child ∈ r.children → ∃ f ∈ fs, f.type.kind? = some child.1
  | _, .cons v rest, among => by
      rcases List.mem_append.mp among with here | later
      · exact ⟨_, List.mem_cons_self, v.kind_of_mem_children here⟩
      · obtain ⟨f, held, kind⟩ := kind_of_mem_children rest later
        exact ⟨f, List.mem_cons_of_mem _ held, kind⟩

/-- What is true of the kinds that the fields of a kind hold is true of the kinds of children. -/
theorem Node.test_of_child {test : Kind → Bool}
    (kinds : (k.fields.all fun f => f.type.kind?.all test) = true) (n : Node k)
    (among : child ∈ n.children) : test child.1 = true := by
  obtain ⟨f, held, kind⟩ := n.fields.kind_of_mem_children among
  have holds := List.all_eq_true.mp kinds f held
  rwa [kind] at holds

end Children

namespace AnyNode

/-- The node of a graph that a node is, if it is one. -/
def graphNode? : AnyNode → Option GraphNode
  | ⟨.node, n⟩ => some n
  | _ => none

/-- The nodes of graphs among a node and those below it, in preorder. -/
def graphNodes (x : AnyNode) : List GraphNode :=
  x.2.tree.preorder.filterMap graphNode?

variable {x : AnyNode} {n : GraphNode}

/-- Only a node of a graph is one. -/
theorem graphNode?_eq_some_iff : x.graphNode? = some n ↔ x = ⟨.node, n⟩ := by
  constructor
  · intro found
    obtain ⟨k, m⟩ := x
    cases k with
    | node => rw [Option.some.inj found]
    | _ => cases found
  · rintro rfl
    rfl

/-- A node of a graphless kind is no node of a graph. -/
theorem graphNode?_of_graphless (graphless : x.1.graphless = true) : x.graphNode? = none := by
  rw [Option.eq_none_iff_forall_ne_some]
  intro n found
  rw [graphNode?_eq_some_iff.mp found] at graphless
  cases graphless

/-- The nodes of graphs are the node itself, if it is one, and those below its children. -/
theorem graphNodes_eq (x : AnyNode) :
    x.graphNodes = x.graphNode?.toList ++ x.2.children.flatMap graphNodes := by
  rw [graphNodes, Node.preorder_tree, List.filterMap_cons, List.filterMap_flatMap]
  cases x.graphNode? <;> rfl

/-- There is no node of a graph below a node of a graphless kind. -/
theorem graphNodes_of_graphless (graphless : x.1.graphless = true) : x.graphNodes = [] := by
  -- The children of a node lie less deep than the node itself.
  induction bound : x.2.depth using Nat.strongRecOn generalizing x with
  | ind bound inductionHypothesis =>
      subst bound
      rw [graphNodes_eq, graphNode?_of_graphless graphless, Option.toList_none, List.nil_append,
        List.flatMap_eq_nil_iff]
      intro child among
      exact inductionHypothesis _ (x.2.depth_lt_of_child among)
        (x.2.test_of_child (Kind.graphless_fields graphless) among) rfl

/-- Children that are of graphless kinds lead to no nodes of graphs. -/
theorem flatMap_graphNodes {children : List AnyNode}
    (kinds : ∀ child ∈ children, child.1.graphNodeOrGraphless = true) :
    children.flatMap graphNodes =
      (children.filterMap graphNode?).flatMap fun n => graphNodes ⟨.node, n⟩ := by
  induction children with
  | nil => rfl
  | cons child rest inductionHypothesis =>
      obtain ⟨first, later⟩ := List.forall_mem_cons.mp kinds
      rw [List.flatMap_cons, inductionHypothesis later]
      obtain ⟨k, m⟩ := child
      rw [Kind.graphNodeOrGraphless, Bool.or_eq_true, decide_eq_true_eq] at first
      rcases first with rfl | graphless
      · rfl
      · rw [graphNodes_of_graphless graphless, List.nil_append,
          List.filterMap_cons_none (graphNode?_of_graphless graphless)]

end AnyNode

open AnyNode (graphNode? graphNodes)

/-- The nodes of graphs in a list of them are what its slots hold. -/
theorem Slots.filterMap_graphNode? : (s : Slots .node) →
    s.children.filterMap graphNode? = NodeList.populated s.toList
  | .nil => rfl
  | .empty rest => filterMap_graphNode? rest
  | .full n rest => congrArg (n :: ·) (filterMap_graphNode? rest)

namespace FieldValue

/-- The nodes of graphs in a field for a list of them are what its slots hold. -/
theorem filterMap_graphNode? (v : FieldValue (.optional (.nodes .node))) :
    v.children.filterMap graphNode? = NodeList.populated (v.content.getD []) := by
  match v with
  | .absent => rfl
  | .present (.nodes s) => exact s.filterMap_graphNode?

/-- There is no node of a graph in a field for nodes of another kind. -/
theorem filterMap_graphNode?_of_ne {t : FieldType} (v : FieldValue t)
    (other : t.kind? ≠ some .node) : v.children.filterMap graphNode? = [] := by
  rw [List.filterMap_eq_nil_iff]
  intro child among
  rw [Option.eq_none_iff_forall_ne_some]
  intro n found
  have kind := v.kind_of_mem_children among
  rw [AnyNode.graphNode?_eq_some_iff.mp found] at kind
  exact other kind

end FieldValue

/-- Whether the field at a place is the only one that may hold nodes of graphs. -/
def Place.alone : {fs : List Field} → {f : Field} → Place fs f → Bool
  | _ :: fs, _, .here => fs.all fun g => g.type.kind? != some .node
  | g :: _, _, .later p => g.type.kind? != some .node && p.alone

namespace Record

/-- There is no node of a graph in fields for nodes of other kinds. -/
theorem filterMap_graphNode?_eq_nil : {fs : List Field} → (r : Record fs) →
    (fs.all fun f => f.type.kind? != some .node) = true → r.children.filterMap graphNode? = []
  | _, .nil, _ => rfl
  | _, .cons v rest, others => by
      obtain ⟨other, others⟩ := Bool.and_eq_true_iff.mp others
      rw [children, List.filterMap_append, v.filterMap_graphNode?_of_ne (bne_iff_ne.mp other),
        filterMap_graphNode?_eq_nil rest others, List.append_nil]

/-- The nodes of graphs in a record are those in the only field that may hold any. -/
theorem filterMap_graphNode? : {fs : List Field} → {f : Field} → (r : Record fs) →
    (p : Place fs f) → p.alone = true →
    r.children.filterMap graphNode? = (r.get p).children.filterMap graphNode?
  | _, _, .cons v rest, .here, alone => by
      rw [children, List.filterMap_append, rest.filterMap_graphNode?_eq_nil alone,
        List.append_nil, get]
  | _, _, .cons v rest, .later p, alone => by
      obtain ⟨other, alone⟩ := Bool.and_eq_true_iff.mp alone
      rw [children, List.filterMap_append, v.filterMap_graphNode?_of_ne (bne_iff_ne.mp other),
        List.nil_append, get, filterMap_graphNode? rest p alone]

end Record

namespace GraphNode

/-- The nodes of graphs among the children of a node of a graph are those nested in it. -/
theorem filterMap_children (n : GraphNode) :
    (Node.children n).filterMap graphNode? = n.nested :=
  (n.fields.filterMap_graphNode? children rfl).trans (FieldValue.filterMap_graphNode? _)

/-- The nodes of graphs at a node of a graph are the node and those at the nodes nested in it. -/
theorem graphNodes_eq_cons (n : GraphNode) :
    graphNodes ⟨.node, n⟩ = n :: n.nested.flatMap fun m => graphNodes ⟨.node, m⟩ := by
  have kinds :
      ((Kind.fields .node).all fun f => f.type.kind?.all Kind.graphNodeOrGraphless) = true :=
    rfl
  rw [AnyNode.graphNodes_eq, AnyNode.flatMap_graphNodes fun _ => n.test_of_child kinds,
    filterMap_children]
  rfl

/-- The tree below a nested node is less deep than the one below the node. -/
theorem depth_lt_of_nested {n m : GraphNode} (among : m ∈ n.nested) :
    Node.depth m < Node.depth n := by
  rw [← filterMap_children, List.mem_filterMap] at among
  obtain ⟨child, held, found⟩ := among
  rw [AnyNode.graphNode?_eq_some_iff.mp found] at held
  exact Node.depth_lt_of_child n held

/-- Within a bound that the tree fits into, a search finds the first node of its id in preorder. -/
theorem findWithin_eq (id : String) (bound : Nat) (n : GraphNode)
    (enough : Node.depth n ≤ bound) :
    findWithin id bound n = (graphNodes ⟨.node, n⟩).find? fun m => m.get GraphNode.id = id := by
  induction bound generalizing n with
  | zero =>
      rw [Node.depth, n.tree_eq, Tree.depth] at enough
      exact absurd enough (Nat.not_succ_le_zero _)
  | succ bound inductionHypothesis =>
      rw [findWithin, graphNodes_eq_cons, List.find?_cons]
      by_cases here : n.get GraphNode.id = id
      · simp [here]
      · simp only [here, if_false, decide_false]
        rw [List.find?_flatMap, ← List.head?_filterMap, ← List.head?_filterMap]
        refine congrArg List.head? (List.filterMap_congr fun m among => inductionHypothesis m ?_)
        have shallower := depth_lt_of_nested among
        omega

/-- A search from a node finds the first node of its id in preorder. -/
theorem find?_eq (n : GraphNode) (id : String) :
    n.find? id = (graphNodes ⟨.node, n⟩).find? fun m => m.get GraphNode.id = id :=
  findWithin_eq id (Node.depth n) n (Nat.le_refl _)

end GraphNode

namespace Graph

/-- The nodes of graphs among the children of a graph are its outermost nodes. -/
theorem filterMap_children (graph : Graph) :
    graph.children.filterMap graphNode? = NodeList.populated ((graph.get nodes).getD []) :=
  (graph.fields.filterMap_graphNode? nodes rfl).trans (FieldValue.filterMap_graphNode? _)

/-- The nodes of graphs below a graph are those at its outermost nodes. -/
theorem graphNodes_eq (graph : Graph) :
    graphNodes ⟨.graph, graph⟩ = (NodeList.populated ((graph.get nodes).getD [])).flatMap
      fun n => graphNodes ⟨.node, n⟩ := by
  have kinds :
      ((Kind.fields .graph).all fun f => f.type.kind?.all Kind.graphNodeOrGraphless) = true := rfl
  rw [AnyNode.graphNodes_eq, AnyNode.flatMap_graphNodes fun _ => graph.test_of_child kinds,
    filterMap_children]
  rfl

/-- A search through a graph finds the first node of its id in preorder. -/
theorem find?_eq (graph : Graph) (id : String) :
    graph.find? id = (graphNodes ⟨.graph, graph⟩).find? fun n => n.get GraphNode.id = id := by
  rw [graphNodes_eq, List.find?_flatMap, Graph.find?]
  exact congrArg (List.findSome? · _) (funext fun n => n.find?_eq id)

/-- A search through a graph finds the first node of its id that a walk comes to, if the walk goes
on everywhere. It finds nothing exactly if no node anywhere below the graph has the id. -/
theorem find?_first_visited {σ : Type} (v : Visitor σ) (goesOn : v.GoesOn) (state : σ)
    (graph : Graph) (id : String) :
    (∀ n, graph.find? id = some n ↔ n.get GraphNode.id = id ∧
      ∃ before after, v.visited graph state = before ++ ⟨.node, n⟩ :: after ∧
        ∀ m : GraphNode, ⟨.node, m⟩ ∈ before → m.get GraphNode.id ≠ id) ∧
    (graph.find? id = none ↔ ∀ path (n : GraphNode),
      Node.descendant? path ⟨.graph, graph⟩ = some ⟨.node, n⟩ → n.get GraphNode.id ≠ id) := by
  rw [find?_eq, graphNodes, Visitor.visited_eq_preorder goesOn]
  constructor
  · intro n
    rw [find?_filterMap_eq_some_iff, decide_eq_true_eq]
    refine and_congr_right fun _ => exists_congr fun before => ?_
    constructor
    · rintro ⟨x, after, eq, held, refused⟩
      obtain rfl := AnyNode.graphNode?_eq_some_iff.mp held
      exact ⟨after, eq, fun m among => of_decide_eq_false (refused _ among m rfl)⟩
    · rintro ⟨after, eq, refused⟩
      refine ⟨_, after, eq, rfl, fun x among m held => decide_eq_false (refused m ?_)⟩
      rwa [← AnyNode.graphNode?_eq_some_iff.mp held]
  · rw [List.find?_eq_none]
    constructor
    · intro refused path n leads same
      refine refused n (List.mem_filterMap.mpr ⟨⟨.node, n⟩, ?_, rfl⟩) (decide_eq_true same)
      exact (Node.mem_preorder_tree_iff (x := ⟨.graph, graph⟩)).mpr ⟨path, leads⟩
    · intro refused n among accepted
      obtain ⟨x, below, held⟩ := List.mem_filterMap.mp among
      obtain rfl := AnyNode.graphNode?_eq_some_iff.mp held
      obtain ⟨path, leads⟩ := (Node.mem_preorder_tree_iff (x := ⟨.graph, graph⟩)).mp below
      exact refused path n leads (of_decide_eq_true accepted)

/-- A graph with an empty slot, a node `a` around an empty slot and a node `b`, and another `b`. -/
def nestedGraph : Graph :=
  (Node.default .graph).set nodes (some [none,
    some ((GraphNode.ofId "a").set GraphNode.children (some [none, some (GraphNode.ofId "b")])),
    some ((GraphNode.ofId "b").set GraphNode.children (some []))])

/-- Of two nodes `b`, the nested one comes first in a walk; there is no node `c`. -/
theorem find?_first_visited_nested :
    (Visitor.idle : Visitor Unit).GoesOn ∧
      nestedGraph.find? "b" = some (GraphNode.ofId "b") ∧
      ∀ path (n : GraphNode), Node.descendant? path ⟨.graph, nestedGraph⟩ = some ⟨.node, n⟩ →
        n.get GraphNode.id ≠ "c" := by
  have goesOn : (Visitor.idle : Visitor Unit).GoesOn := by
    rintro ⟨k, n⟩ state
    cases k <;> rfl
  refine ⟨goesOn, ((find?_first_visited .idle goesOn () nestedGraph "b").1 _).mpr ⟨rfl, ?_⟩,
    (find?_first_visited .idle goesOn () nestedGraph "c").2.mp rfl⟩
  refine ⟨[⟨.graph, nestedGraph⟩, ⟨.node, _⟩], [⟨.node, _⟩], rfl, fun m among => ?_⟩
  rcases among with _ | ⟨_, _ | ⟨_, ⟨⟩⟩⟩
  exact nofun

end Graph
end Sarif
