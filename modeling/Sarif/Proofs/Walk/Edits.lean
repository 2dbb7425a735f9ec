import Sarif.Node.FieldNames
import Sarif.Proofs.Node.Frame
import Sarif.Proofs.Walk.Visits

/-!
# Edits made in one hook

An editor that makes an edit in one of its hooks, and goes on everywhere, takes the nodes of that
hook in preorder: each of them is edited once, the state goes from one to the next, and what the
other nodes hold is as it was. The edit may change a node beside its children; as the node keeps
these, every node is handed to the edit as it stands in the tree that the editor sets out on.
`Editor.edit_inHook_iff` says so of what nodes hold beside their children, which together with the
shape of the tree is all that there is to a tree (`Node.eq_of_shape_of_preorder`).
-/

namespace Sarif

/-! ## Trees and what their nodes hold -/

/-- What a node holds beside its children, with its kind. -/
abbrev OwnPart := (k : Kind) × Record.Frame k.fields

/-- What a node holds beside its children, with its kind. -/
def Node.ownPart (x : AnyNode) : OwnPart :=
  ⟨x.1, x.2.frame⟩

/-- The kinds of the nodes of a tree, each in its place. -/
abbrev Node.shape {k : Kind} (n : Node k) : Tree Kind :=
  n.tree.map Sigma.fst

namespace Tree

variable {α β γ : Type}

/-- A function is applied to a run tree by tree. -/
theorem maps_eq_map (f : α → β) (ts : List (Tree α)) : maps f ts = ts.map (map f) := by
  induction ts with
  | nil => rfl
  | cons t rest inductionHypothesis => rw [maps, inductionHypothesis, List.map_cons]

mutual

/-- A function is applied to the values in preorder. -/
theorem preorder_map (f : α → β) : (t : Tree α) → (t.map f).preorder = t.preorder.map f
  | node value below => by rw [map, preorder, preorder, preorders_maps f below, List.map_cons]

/-- A function is applied to the values of a run in preorder. -/
theorem preorders_maps (f : α → β) : (ts : List (Tree α)) →
    preorders (maps f ts) = (preorders ts).map f
  | [] => rfl
  | t :: rest => by
      rw [maps, preorders, preorders, preorder_map f t, preorders_maps f rest, List.map_append]

end

/-- Trees of one shape hold equally many values. -/
theorem length_preorder_eq {g : α → β} {t u : Tree α} (shape : t.map g = u.map g) :
    t.preorder.length = u.preorder.length := by
  rw [← List.length_map g, ← List.length_map g, ← preorder_map, ← preorder_map, shape]

mutual

/-- Trees of one shape with the same values in preorder have them in the same places. -/
theorem map_eq_of_preorder {g : α → β} {f : α → γ} : (t u : Tree α) → t.map g = u.map g →
    t.preorder.map f = u.preorder.map f → t.map f = u.map f
  | node _ below, node _ others, shape, same => by
      obtain ⟨root, rest⟩ := List.cons.inj same
      rw [map, map, root, maps_eq_of_preorders below others (node.inj shape).2 rest]

/-- Runs of trees of one shape with the same values in preorder have them in the same places. -/
theorem maps_eq_of_preorders {g : α → β} {f : α → γ} : (ts us : List (Tree α)) →
    maps g ts = maps g us → (preorders ts).map f = (preorders us).map f → maps f ts = maps f us
  | [], [], _, _ => rfl
  | [], _ :: _, shape, _ => by cases shape
  | _ :: _, [], shape, _ => by cases shape
  | t :: ts, u :: us, shape, same => by
      obtain ⟨first, later⟩ := List.cons.inj shape
      rw [preorders, preorders, List.map_append, List.map_append] at same
      have lengths : (t.preorder.map f).length = (u.preorder.map f).length := by
        rw [List.length_map, List.length_map, length_preorder_eq first]
      obtain ⟨head, tail⟩ := List.append_inj same lengths
      rw [maps, maps, map_eq_of_preorder t u first head, maps_eq_of_preorders ts us later tail]

end

end Tree

namespace Node

variable {k : Kind}

/-- A function is applied to the tree below a node child by child. -/
theorem map_tree {β : Type} (f : AnyNode → β) (n : Node k) :
    n.tree.map f = .node (f ⟨k, n⟩) (n.children.map fun child => child.2.tree.map f) := by
  rw [tree_eq, Tree.map, Tree.maps_eq_map, List.map_map]
  rfl

/-- What tells the values of a list apart from all others tells lists of them apart. -/
theorem eq_of_map_eq {α β : Type} {f : α → β} {xs ys : List α}
    (apart : ∀ x ∈ xs, ∀ y, f x = f y → x = y) (same : xs.map f = ys.map f) : xs = ys := by
  induction xs generalizing ys with
  | nil => exact (List.map_eq_nil_iff.mp same.symm).symm
  | cons x xs inductionHypothesis =>
      obtain ⟨first, later⟩ := List.forall_mem_cons.mp apart
      obtain ⟨y, rest, rfl, head, tail⟩ := List.map_eq_cons_iff.mp same.symm
      rw [first y head.symm, inductionHypothesis later tail.symm]

/-- Nodes are equal if the trees below them hold the same in the same places. -/
theorem eq_of_map_ownPart {x y : AnyNode}
    (same : x.2.tree.map ownPart = y.2.tree.map ownPart) : x = y := by
  -- The children of a node lie less deep than the node itself.
  induction bound : x.2.depth using Nat.strongRecOn generalizing x y with
  | ind bound inductionHypothesis =>
      subst bound
      obtain ⟨k, n⟩ := x
      obtain ⟨l, m⟩ := y
      rw [map_tree, map_tree] at same
      obtain ⟨root, below⟩ := Tree.node.inj same
      obtain ⟨rfl, frames⟩ := Sigma.mk.inj root
      have children : n.children = m.children := by
        refine eq_of_map_eq (fun child among other alike => ?_) below
        exact inductionHypothesis _ (n.depth_lt_of_child among) alike rfl
      exact congrArg (Sigma.mk _) (ext_frame (eq_of_heq frames) children)

/-- A node is the shape of the tree below it and what the nodes of the tree hold in preorder. -/
theorem eq_of_shape_of_preorder {n m : Node k} (shape : n.shape = m.shape)
    (same : n.tree.preorder.map ownPart = m.tree.preorder.map ownPart) : n = m := by
  have nodes : (⟨k, n⟩ : AnyNode) = ⟨k, m⟩ :=
    eq_of_map_ownPart (Tree.map_eq_of_preorder _ _ shape same)
  exact eq_of_heq (Sigma.mk.inj nodes).2

end Node

/-! ## An edit of every node -/

section Edits

variable {σ : Type} {k : Kind}

/-- `y` has the shape of `x`, and its nodes in preorder hold beside their children what a step makes
of the nodes of `x`, one by one with the state handed on. -/
structure SteppedThrough (step : ChildStep σ) (x : Node k) (before : σ) (y : Node k) (after : σ) :
    Prop where
  shape : y.shape = x.shape
  own : y.tree.preorder.map Node.ownPart = (step.run x.tree.preorder before).1.map Node.ownPart
  state : after = (step.run x.tree.preorder before).2

/-- Nodes that are stepped through one by one are so as a run. -/
theorem SteppedThrough.run {step walk : ChildStep σ} {xs : List AnyNode}
    (each : ∀ x ∈ xs, ∀ state,
      SteppedThrough step x.2 state (walk x.1 x.2 state).1 (walk x.1 x.2 state).2) (state : σ) :
    ((walk.run xs state).1.map fun y => y.2.shape) = xs.map (fun x => x.2.shape) ∧
      ((walk.run xs state).1.flatMap fun y => y.2.tree.preorder).map Node.ownPart =
        (step.run (xs.flatMap fun x => x.2.tree.preorder) state).1.map Node.ownPart ∧
      (walk.run xs state).2 = (step.run (xs.flatMap fun x => x.2.tree.preorder) state).2 := by
  induction xs generalizing state with
  | nil => exact ⟨rfl, rfl, rfl⟩
  | cons x xs inductionHypothesis =>
      obtain ⟨first, later⟩ := List.forall_mem_cons.mp each
      obtain ⟨shape, own, after⟩ := first state
      obtain ⟨shapes, owns, afters⟩ := inductionHypothesis later (walk x.1 x.2 state).2
      rw [ChildStep.run, List.flatMap_cons, List.flatMap_cons, ChildStep.run_append, ← after]
      refine ⟨?_, ?_, afters⟩
      · rw [List.map_cons, List.map_cons, shape, shapes]
      · rw [List.map_append, List.map_append, own, owns]

/-- An edit of a node that keeps its children, and then a walk through these that steps through each
of them, step through the node. -/
theorem SteppedThrough.traverse {step walk : ChildStep σ} {n : Node k} {before : σ}
    (keeps : (step k n before).1.children = n.children)
    (each : ∀ x ∈ n.children, ∀ state,
      SteppedThrough step x.2 state (walk x.1 x.2 state).1 (walk x.1 x.2 state).2) :
    SteppedThrough step n before
      ((step k n before).1.traverse walk (step k n before).2).1
      ((step k n before).1.traverse walk (step k n before).2).2 := by
  have taken := (step k n before).1.run_children walk (step k n before).2
  rw [keeps] at taken
  obtain ⟨shapes, owns, after⟩ := SteppedThrough.run each (step k n before).2
  rw [taken] at shapes owns after
  refine ⟨?_, ?_, ?_⟩
  · rw [Node.shape, Node.shape, Node.map_tree, Node.map_tree]
    exact congrArg (Tree.node k) shapes
  · rw [Node.preorder_tree, Node.preorder_tree, List.map_cons, owns, ChildStep.run, List.map_cons,
      Node.ownPart, Node.frame_traverse]
    rfl
  · rw [Node.preorder_tree]
    exact after

namespace Editor

variable {e : Editor σ} {step : ChildStep σ}

/-- With a bound that the tree fits into, an editor whose calls go on, and amount to a step that
keeps children, steps through the tree. -/
theorem steppedThrough_editWithin
    (calls : ∀ k n state, e.enter k n state = ⟨(step k n state).1, (step k n state).2, true⟩)
    (keeps : ∀ k n state, (step k n state).1.children = n.children)
    (bound : Nat) (n : Node k) (enough : n.depth ≤ bound) (state : σ) :
    SteppedThrough step n state (e.editWithin bound k n state).1
      (e.editWithin bound k n state).2 := by
  induction bound generalizing k state with
  | zero =>
      rw [Node.depth, n.tree_eq, Tree.depth] at enough
      exact absurd enough (Nat.not_succ_le_zero _)
  | succ bound inductionHypothesis =>
      rw [editWithin, calls]
      refine SteppedThrough.traverse (keeps k n state) fun child among state => ?_
      have shallower := n.depth_lt_of_child among
      exact inductionHypothesis child.2 (by omega) state

end Editor

/-! ## An edit in one hook -/

/-- Whether a hook is called for nodes of a kind: the hook for nodes for all, the others for nodes
of their own kind. -/
def Hook.takes (hook : Hook) (k : Kind) : Bool :=
  hook == .node || Hook.typed? k == some hook

/-- What a call that makes an edit answers: it goes on. -/
def Edited.ofEdit (edited : Node k × σ) : Edited k σ :=
  ⟨edited.1, edited.2, true⟩

/-- The editor that makes an edit in one hook; it goes on everywhere and does nothing in the other
hooks. -/
def Editor.inHook (hook : Hook) (edit : ChildStep σ) : Editor σ :=
  match hook with
  | .node => { idle with node := fun k n state => .ofEdit (edit k n state) }
  | .result => { idle with result := fun n state => .ofEdit (edit .result n state) }
  | .location => { idle with location := fun n state => .ofEdit (edit .location n state) }
  | .artifactLocation =>
      { idle with artifactLocation := fun n state => .ofEdit (edit .artifactLocation n state) }
  | .region => { idle with region := fun n state => .ofEdit (edit .region n state) }
  | .message => { idle with message := fun n state => .ofEdit (edit .message n state) }

/-- The step that makes an edit of the nodes that a hook takes. -/
def ChildStep.only (edit : ChildStep σ) (hook : Hook) : ChildStep σ :=
  fun k n state => if hook.takes k then edit k n state else (n, state)

/-- The calls of an editor with one hook amount to the edit, for nodes that the hook takes. -/
theorem Editor.enter_inHook (hook : Hook) (edit : ChildStep σ) (k : Kind) (n : Node k) (state : σ) :
    (inHook hook edit).enter k n state =
      ⟨(edit.only hook k n state).1, (edit.only hook k n state).2, true⟩ := by
  cases hook <;> cases k <;> rfl

/-- Of a run of nodes an edit takes those that the hook takes, as if the others were not there. -/
theorem ChildStep.filter_run_only (edit : ChildStep σ) (hook : Hook) (xs : List AnyNode)
    (state : σ) :
    ((edit.only hook).run xs state).1.filter (hook.takes ·.1) =
        (edit.run (xs.filter (hook.takes ·.1)) state).1 ∧
      ((edit.only hook).run xs state).1.filter (!hook.takes ·.1) = xs.filter (!hook.takes ·.1) ∧
      ((edit.only hook).run xs state).2 = (edit.run (xs.filter (hook.takes ·.1)) state).2 := by
  induction xs generalizing state with
  | nil => exact ⟨rfl, rfl, rfl⟩
  | cons x xs inductionHypothesis =>
      cases taken : hook.takes x.1 with
      | true =>
          obtain ⟨edited, kept, after⟩ := inductionHypothesis (edit x.1 x.2 state).2
          simp [run, only, taken, edited, kept, after]
      | false =>
          obtain ⟨edited, kept, after⟩ := inductionHypothesis state
          simp [run, only, taken, edited, kept, after]

/-- `y` is `x` with an edit made once, in preorder, of every node that a hook takes: it has the
shape of `x`, these nodes hold beside their children what the edit makes of those of `x` when the
state is handed from one to the next, and all other nodes hold what they held. -/
structure Rewritten (hook : Hook) (edit : ChildStep σ) (x : Node k) (before : σ) (y : Node k)
    (after : σ) : Prop where
  shape : y.shape = x.shape
  taken : (y.tree.preorder.filter (hook.takes ·.1)).map Node.ownPart =
    (edit.run (x.tree.preorder.filter (hook.takes ·.1)) before).1.map Node.ownPart
  others : (y.tree.preorder.filter (!hook.takes ·.1)).map Node.ownPart =
    (x.tree.preorder.filter (!hook.takes ·.1)).map Node.ownPart
  state : after = (edit.run (x.tree.preorder.filter (hook.takes ·.1)) before).2

/-- Items of a list whose kinds are known are known if those of some kinds are, and the others. -/
theorem eq_of_filter_eq (kept : Kind → Bool) {xs ys : List OwnPart}
    (kinds : xs.map Sigma.fst = ys.map Sigma.fst)
    (taken : xs.filter (kept ·.1) = ys.filter (kept ·.1))
    (others : xs.filter (!kept ·.1) = ys.filter (!kept ·.1)) : xs = ys := by
  induction xs generalizing ys with
  | nil => exact (List.map_eq_nil_iff.mp kinds.symm).symm
  | cons x xs inductionHypothesis =>
      obtain ⟨y, rest, rfl, head, tail⟩ := List.map_eq_cons_iff.mp kinds.symm
      cases own : kept x.1 with
      | true =>
          have partner : kept y.1 = true := by rw [head, own]
          simp only [List.filter_cons, own, partner, Bool.not_true, if_true] at taken others
          obtain ⟨rfl, later⟩ := List.cons.inj taken
          rw [inductionHypothesis tail.symm later others]
      | false =>
          have partner : kept y.1 = false := by rw [head, own]
          simp only [List.filter_cons, own, partner, Bool.not_false, if_true] at taken others
          obtain ⟨rfl, later⟩ := List.cons.inj others
          rw [inductionHypothesis tail.symm taken later]

/-- Taking nodes of a list apart by their kinds and looking at what they hold is the same in either
order. -/
theorem Node.filter_map_ownPart (kept : Kind → Bool) (xs : List AnyNode) :
    (xs.map ownPart).filter (kept ·.1) = (xs.filter (kept ·.1)).map ownPart :=
  List.filter_map

/-- A tree that is stepped through by the edits of one hook is rewritten. -/
theorem Rewritten.of_steppedThrough {hook : Hook} {edit : ChildStep σ} {x y : Node k}
    {before after : σ} (stepped : SteppedThrough (edit.only hook) x before y after) :
    Rewritten hook edit x before y after := by
  obtain ⟨shape, own, state⟩ := stepped
  obtain ⟨edited, kept, handed⟩ := edit.filter_run_only hook x.tree.preorder before
  refine ⟨shape, ?_, ?_, state.trans handed⟩
  · rw [← Node.filter_map_ownPart hook.takes, own, Node.filter_map_ownPart hook.takes, edited]
  · rw [← Node.filter_map_ownPart (!hook.takes ·), own, Node.filter_map_ownPart (!hook.takes ·),
      kept]

/-- There is one outcome of rewriting a tree. -/
theorem Rewritten.unique {hook : Hook} {edit : ChildStep σ} {x y z : Node k} {before after last : σ}
    (one : Rewritten hook edit x before y after) (other : Rewritten hook edit x before z last) :
    (y, after) = (z, last) := by
  have shape : y.shape = z.shape := one.shape.trans other.shape.symm
  have kinds : (y.tree.preorder.map Node.ownPart).map Sigma.fst =
      (z.tree.preorder.map Node.ownPart).map Sigma.fst := by
    have listed := congrArg Tree.preorder shape
    rw [Tree.preorder_map, Tree.preorder_map] at listed
    rw [List.map_map, List.map_map]
    exact listed
  have own : y.tree.preorder.map Node.ownPart = z.tree.preorder.map Node.ownPart := by
    refine eq_of_filter_eq hook.takes kinds ?_ ?_
    · rw [Node.filter_map_ownPart hook.takes, Node.filter_map_ownPart hook.takes, one.taken,
        other.taken]
    · rw [Node.filter_map_ownPart (!hook.takes ·), Node.filter_map_ownPart (!hook.takes ·),
        one.others, other.others]
  rw [Node.eq_of_shape_of_preorder shape own, one.state, other.state]

namespace Editor

/-- An editor that makes an edit in one hook, for nodes of any kind or for those of one, rewrites a
tree as the hook takes its nodes, as long as the edit keeps the children of the nodes that it is
handed: this is all that the outcome is, and there is no other. -/
theorem edit_inHook_iff (hook : Hook) (edit : ChildStep σ)
    (keeps : ∀ k, hook.takes k = true → ∀ (n : Node k) (state : σ),
      (edit k n state).1.children = n.children)
    (x : Node k) (before : σ) (y : Node k) (after : σ) :
    (inHook hook edit).edit x before = (y, after) ↔ Rewritten hook edit x before y after := by
  have kept : ∀ k (n : Node k) (state : σ), (edit.only hook k n state).1.children = n.children := by
    intro k n state
    rw [ChildStep.only]
    split
    · next taken => exact keeps k taken n state
    · rfl
  have outcome : Rewritten hook edit x before ((inHook hook edit).edit x before).1
      ((inHook hook edit).edit x before).2 :=
    .of_steppedThrough (steppedThrough_editWithin (enter_inHook hook edit) kept x.depth x
      (Nat.le_refl _) before)
  constructor
  · intro same
    rwa [same] at outcome
  · intro rewritten
    exact outcome.unique rewritten

end Editor

end Edits

/-! ## Texts handed out to messages -/

/-- The edit that hands out texts to messages, one after the other. -/
def handOut : ChildStep (List String)
  | .message, n, text :: rest => (n.set Message.text (some text), rest)
  | _, n, texts => (n, texts)

/-- A text that is handed out leaves the children of the message as they are. -/
theorem children_handOut (n : Node .message) (texts : List String) :
    (handOut .message n texts).1.children = n.children := by
  cases texts with
  | nil => rfl
  | cons text rest =>
      match n with
      | .mk (.cons (.present (.flat _)) _) => rfl
      | .mk (.cons .absent _) => rfl

/-- A location with a message, and two regions around an empty slot of which the first has a message
as well. -/
def annotatedLocation (first second : Message) : Location :=
  let message : FieldOf .region "message" (.optional (.node .message)) := .ofIndex 9 rfl
  ((Node.default .location).set
    (.ofIndex 3 rfl : FieldOf .location "message" (.optional (.node .message))) (some first)).set
    (.ofIndex 4 rfl : FieldOf .location "annotations" (.optional (.nodes .region)))
    [some ((Node.default .region).set message (some second)), none, some (Node.default .region)]

namespace Editor

/-- Of three texts the first goes to the message of the location and the second to that of its
region; the slots, the regions and the location are as they were, and the third is left. -/
theorem edit_inHook_iff_annotatedLocation :
    (inHook .message handOut).edit
        (annotatedLocation (Node.default .message) (Node.default .message)) ["a", "b", "c"] =
      (annotatedLocation ((Node.default .message).set Message.text (some "a"))
        ((Node.default .message).set Message.text (some "b")), ["c"]) := by
  refine (edit_inHook_iff .message handOut (fun k taken n texts => ?_) _ _ _ _).mpr
    ⟨by cbv, by rfl, by cbv, by rfl⟩
  obtain rfl : k = .message := by
    cases k <;> first | rfl | exact absurd taken (by decide)
  exact children_handOut n texts

end Editor
end Sarif
