import Mathlib.Data.List.Basic
import Sarif.Node.Default
import Sarif.Node.FieldNames
import Sarif.Proofs.Node.Frame
import Sarif.PropertyBag

/-!
# Replacement below a node

A path of child indexes gives access to the node that it leads to: the node can be looked up there,
and another of its kind can be put in its place. The children that a traversal hands out are those
that are listed, and a change at an index is a change of that item of the list with the frame as it
was. From this follow the laws of access at a path: what was put is found, nothing else changes,
putting back what was there restores the whole, of two nodes put at one path the second stays, and
the order does not matter at paths that part. `Node.replaceAt_lawful` collects them.
-/

namespace Sarif
namespace Node

variable {k : Kind}

/-- A change of a node together with its kind, which stays. -/
def Change.apply (change : Change) (x : AnyNode) : AnyNode :=
  ⟨x.1, change x.1 x.2⟩

/-! ## One child changed -/

section Child

variable (change : Change)

/-- A traversal past the index of a change changes nothing. -/
theorem run_changeAt_of_lt {index count : Nat} (past : index < count) (xs : List AnyNode) :
    (changeAt index change).run xs count = (xs, count + xs.length) := by
  induction xs generalizing count with
  | nil => rfl
  | cons x xs inductionHypothesis =>
      have other : count ≠ index := by omega
      have later : index < count + 1 := by omega
      simp only [ChildStep.run, changeAt, if_neg other, inductionHypothesis later,
        List.length_cons]
      rw [Nat.add_right_comm, Nat.add_assoc]

/-- A traversal up to the index of a change changes the item that stands there. -/
theorem run_changeAt (count index : Nat) (xs : List AnyNode) :
    (changeAt (count + index) change).run xs count =
      (xs.modify index change.apply, count + xs.length) := by
  induction xs generalizing count index with
  | nil => simp [ChildStep.run]
  | cons x xs inductionHypothesis =>
      have shift : count + 1 + xs.length = count + (xs.length + 1) := by omega
      cases index with
      | zero =>
          have later := run_changeAt_of_lt change (Nat.lt_add_one count) xs
          simp only [ChildStep.run, changeAt, Nat.add_zero, if_true, later, List.length_cons, shift,
            List.modify_zero_cons]
          rfl
      | succ index =>
          have other : count ≠ count + (index + 1) := by omega
          have later := inductionHypothesis (count + 1) index
          rw [Nat.add_assoc, Nat.add_comm 1] at later
          simp only [ChildStep.run, changeAt, if_neg other, later, List.length_cons, shift,
            List.modify_succ_cons]

/-- A change of a child keeps the frame. -/
@[simp] theorem frame_modifyChild (n : Node k) (index : Nat) :
    (n.modifyChild index change).frame = n.frame :=
  n.frame_traverse _ _

/-- A change of a child changes it in the list of the children. -/
@[simp] theorem children_modifyChild (n : Node k) (index : Nat) :
    (n.modifyChild index change).children = n.children.modify index change.apply := by
  have taken := run_changeAt change 0 index n.children
  rw [Nat.zero_add, run_children] at taken
  exact congrArg Prod.fst taken

/-- A change of a child puts what it makes of the child in its place among the children. -/
theorem children_modifyChild_of_child? (n : Node k) {index : Nat} {child : AnyNode}
    (found : n.child? index = some child) :
    (n.modifyChild index change).children = n.children.set index (change.apply child) := by
  have stands : n.children[index]? = some child := found
  rw [children_modifyChild, List.modify_eq_set_getElem?, stands]
  rfl

/-- The children of a node with one child changed. -/
theorem child?_modifyChild (n : Node k) (index other : Nat) :
    (n.modifyChild index change).child? other =
      if index = other then (n.child? other).map change.apply else n.child? other := by
  rw [child?, children_modifyChild, List.getElem?_modify]
  split <;> simp [child?]

variable {change} {changeAfter : Change}

/-- Two changes of one child are one change. -/
theorem modifyChild_modifyChild (n : Node k) (index : Nat) :
    (n.modifyChild index change).modifyChild index changeAfter =
      n.modifyChild index fun k m => changeAfter k (change k m) := by
  apply ext_frame
  · simp
  · simp only [children_modifyChild, List.modify_modify_eq]
    rfl

/-- Changes of two children commute. -/
theorem modifyChild_comm (n : Node k) {index other : Nat} (apart : index ≠ other) :
    (n.modifyChild index change).modifyChild other changeAfter =
      (n.modifyChild other changeAfter).modifyChild index change := by
  apply ext_frame
  · simp
  · simp only [children_modifyChild, List.modify_modify_ne _ _ _ apart]

/-- Changes that agree on a child change it alike. -/
theorem modifyChild_congr (n : Node k) {index : Nat}
    (agree : ∀ child, n.child? index = some child →
      change child.1 child.2 = changeAfter child.1 child.2) :
    n.modifyChild index change = n.modifyChild index changeAfter := by
  apply ext_frame
  · simp
  · apply List.ext_getElem?
    intro other
    simp only [children_modifyChild, List.getElem?_modify]
    by_cases here : index = other
    · subst here
      cases found : n.children[index]? with
      | none => rfl
      | some child => simp [Change.apply, agree child found]
    · simp [here]

/-- A child that is left as it is leaves the node as it is. -/
theorem modifyChild_id (n : Node k) (index : Nat) : n.modifyChild index (fun _ m => m) = n := by
  apply ext_frame
  · simp
  · rw [children_modifyChild]
    exact List.modify_id index n.children

end Child

/-! ## Changes at a path -/

section Path

variable {change changeAfter : Change} {path other : List Nat}

/-- The node at a path lies in the child that the first index leads to. -/
theorem descendant?_cons (index : Nat) (path : List Nat) (x : AnyNode) :
    descendant? (index :: path) x = (x.2.child? index).bind (descendant? path) := rfl

/-- A change at a path is made in the child that the first index leads to. -/
theorem modifyAt_cons (index : Nat) (path : List Nat) (n : Node k) :
    modifyAt (index :: path) change k n = n.modifyChild index (modifyAt path change) := rfl

/-- The children of a node with a change at a path. -/
theorem child?_modifyAt_cons (index first : Nat) (path : List Nat) (x : AnyNode) :
    ((modifyAt (index :: path) change).apply x).2.child? first =
      if index = first then (x.2.child? first).map (modifyAt path change).apply
      else x.2.child? first :=
  child?_modifyChild (modifyAt path change) x.2 index first

/-- A path goes on where its first part ends. -/
theorem descendant?_append (x : AnyNode) :
    descendant? (path ++ other) x = (descendant? path x).bind (descendant? other) := by
  induction path generalizing x with
  | nil => rfl
  | cons index path inductionHypothesis =>
      rw [List.cons_append, descendant?_cons, descendant?_cons, Option.bind_assoc]
      exact congrArg _ (funext inductionHypothesis)

/-- At and above the end of the path a change shows as a change at the rest of the path. -/
theorem descendant?_modifyAt_above (change : Change) (path other : List Nat) (x : AnyNode) :
    descendant? path ((modifyAt (path ++ other) change).apply x) =
      (descendant? path x).map (modifyAt other change).apply := by
  induction path generalizing x with
  | nil => rfl
  | cons index path inductionHypothesis =>
      rw [List.cons_append, descendant?_cons, descendant?_cons, child?_modifyAt_cons, if_pos rfl]
      cases x.2.child? index with
      | none => rfl
      | some child => exact inductionHypothesis child

/-- Below the end of the path stands what the change has made. -/
theorem descendant?_modifyAt_below (change : Change) (path other : List Nat) (x : AnyNode) :
    descendant? (path ++ other) ((modifyAt path change).apply x) =
      (descendant? path x).bind fun d => descendant? other (change.apply d) := by
  have here := descendant?_modifyAt_above change path [] x
  rw [List.append_nil] at here
  rw [descendant?_append, here, Option.bind_map]
  rfl

/-- Where neither path is a part of the other, a change at the one does not show at the other. -/
theorem descendant?_modifyAt_apart (x : AnyNode) (above : ¬ path <+: other)
    (below : ¬ other <+: path) :
    descendant? other ((modifyAt path change).apply x) = descendant? other x := by
  induction path generalizing other x with
  | nil => exact absurd List.nil_prefix above
  | cons index path inductionHypothesis =>
      cases other with
      | nil => exact absurd List.nil_prefix below
      | cons first other =>
          rw [descendant?_cons, descendant?_cons, child?_modifyAt_cons]
          by_cases same : index = first
          · subst same
            rw [List.cons_prefix_cons] at above below
            rw [if_pos rfl]
            cases x.2.child? index with
            | none => rfl
            | some child =>
                exact inductionHypothesis child (fun part => above ⟨rfl, part⟩)
                  fun part => below ⟨rfl, part⟩
          · rw [if_neg same]

/-- A change at a path is a change at its first part of what lies at the rest. -/
theorem modifyAt_append :
    modifyAt (path ++ other) change = modifyAt path (modifyAt other change) := by
  induction path with
  | nil => rfl
  | cons index path inductionHypothesis =>
      rw [List.cons_append, modifyAt, modifyAt, inductionHypothesis]

/-- Changes that agree on the node at a path change it alike. -/
theorem modifyAt_congr (n : Node k)
    (agree : ∀ d, descendant? path ⟨k, n⟩ = some d → change d.1 d.2 = changeAfter d.1 d.2) :
    modifyAt path change k n = modifyAt path changeAfter k n := by
  induction path generalizing k with
  | nil => exact agree ⟨k, n⟩ rfl
  | cons index path inductionHypothesis =>
      refine modifyChild_congr n fun child found => inductionHypothesis child.2 fun d below => ?_
      exact agree d (Option.bind_eq_some_iff.mpr ⟨child, found, below⟩)

/-- A node that is left as it is leaves those above it as they are. -/
theorem modifyAt_id (n : Node k) : modifyAt path (fun _ m => m) k n = n := by
  induction path generalizing k with
  | nil => rfl
  | cons index path inductionHypothesis =>
      have unchanged : modifyAt path (fun _ m => m) = fun _ m => m :=
        funext fun _ => funext inductionHypothesis
      rw [modifyAt_cons, unchanged, modifyChild_id]

/-- Two changes at one path are one change. -/
theorem modifyAt_modifyAt (n : Node k) :
    modifyAt path changeAfter k (modifyAt path change k n) =
      modifyAt path (fun k m => changeAfter k (change k m)) k n := by
  induction path generalizing k with
  | nil => rfl
  | cons index path inductionHypothesis =>
      rw [modifyAt_cons, modifyAt_cons, modifyAt_cons, modifyChild_modifyChild]
      exact modifyChild_congr n fun child _ => inductionHypothesis child.2

/-- Changes at two paths commute where neither path is a part of the other. -/
theorem modifyAt_comm (n : Node k) (above : ¬ path <+: other) (below : ¬ other <+: path) :
    modifyAt other changeAfter k (modifyAt path change k n) =
      modifyAt path change k (modifyAt other changeAfter k n) := by
  induction path generalizing other k with
  | nil => exact absurd List.nil_prefix above
  | cons index path inductionHypothesis =>
      cases other with
      | nil => exact absurd List.nil_prefix below
      | cons first other =>
          simp only [modifyAt_cons]
          by_cases same : index = first
          · subst same
            rw [List.cons_prefix_cons] at above below
            rw [modifyChild_modifyChild, modifyChild_modifyChild]
            exact modifyChild_congr n fun child _ => inductionHypothesis child.2
              (fun part => above ⟨rfl, part⟩) fun part => below ⟨rfl, part⟩
          · exact modifyChild_comm n same

end Path

/-! ## Nodes put at a path -/

/-- The step that notes each child and leaves it as it is. -/
def noting : ChildStep (List AnyNode) :=
  fun k n seen => (n, seen ++ [⟨k, n⟩])

/-- Noting nodes one by one lists them. -/
theorem run_noting (xs seen : List AnyNode) : noting.run xs seen = (xs, seen ++ xs) := by
  induction xs generalizing seen with
  | nil => simp [ChildStep.run]
  | cons x xs inductionHypothesis => simp [ChildStep.run, noting, inductionHypothesis]

/-- A traversal hands out the children that are listed. -/
theorem traverse_noting (n : Node k) : n.traverse noting [] = (n, n.children) :=
  traverse_eq_of_run noting (run_noting n.children [])

/-- A node takes the place of one of its kind. -/
theorem putting_self (y : AnyNode) (n : Node y.1) : putting y y.1 n = y.2 :=
  dif_pos rfl

/-- `z` is `x` with `y` at a path and everything else as it was. -/
structure Written (path : List Nat) (y : AnyNode) (x z : Node k) : Prop where
  /-- At the path stands `y`, and below it what stands below `y`. -/
  below : ∀ rest, descendant? (path ++ rest) ⟨k, z⟩ = descendant? rest y
  /-- A node above the path keeps its kind, its frame and all its children but the one through which
  the path goes. -/
  above : ∀ outer index, outer ++ [index] <+: path →
    ∃ (h : Kind) (before after : Node h) (child : AnyNode),
      descendant? outer ⟨k, x⟩ = some ⟨h, before⟩ ∧ descendant? outer ⟨k, z⟩ = some ⟨h, after⟩ ∧
        after.frame = before.frame ∧ after.children = before.children.set index child
  /-- A node that is neither on the path nor below it is the one that it was. -/
  apart : ∀ other, ¬ path <+: other → ¬ other <+: path →
    descendant? other ⟨k, z⟩ = descendant? other ⟨k, x⟩

/-- A change at a path writes what it makes of the node there. -/
theorem written_modifyAt (x : Node k) {path : List Nat} {d : AnyNode} (change : Change)
    (found : descendant? path ⟨k, x⟩ = some d) :
    Written path (change.apply d) x (modifyAt path change k x) where
  below rest := by
    have inside := descendant?_modifyAt_below change path rest ⟨k, x⟩
    rwa [found] at inside
  above := by
    rintro outer index ⟨rest, rfl⟩
    rw [List.append_assoc, descendant?_append] at found
    obtain ⟨⟨h, before⟩, here, onward⟩ := Option.bind_eq_some_iff.mp found
    obtain ⟨child, stands, _⟩ := Option.bind_eq_some_iff.mp onward
    have there := descendant?_modifyAt_above change outer (index :: rest) ⟨k, x⟩
    rw [here] at there
    refine ⟨h, before, modifyAt (index :: rest) change h before,
      (modifyAt rest change).apply child, here, ?_, ?_, ?_⟩
    · rw [List.append_assoc]
      exact there
    · exact frame_modifyChild _ before index
    · exact children_modifyChild_of_child? _ before stands
  apart other above below := descendant?_modifyAt_apart ⟨k, x⟩ above below

/-- Access to the children of a node, and to the nodes at the paths below it, is lawful. A traversal
hands out the children that are listed. A node put at an index stands there among the children, and
the frame is as it was. A node put at a path is written there and nothing else changes; putting back
the node that was there restores the whole; a node put at a path forgets what was put there, or
below, before; one put below goes into it; and the order does not matter at paths of which neither
is a part of the other. -/
theorem replaceAt_lawful (x : Node k) :
    x.traverse noting [] = (x, x.children) ∧
    (∀ (index : Nat) (child : AnyNode), x.child? index = some child → ∀ y : Node child.1,
      (x.replaceAt [index] ⟨child.1, y⟩).children = x.children.set index ⟨child.1, y⟩ ∧
        (x.replaceAt [index] ⟨child.1, y⟩).frame = x.frame) ∧
    ∀ (path : List Nat) (d : AnyNode), descendant? path ⟨k, x⟩ = some d → ∀ y : Node d.1,
      Written path ⟨d.1, y⟩ x (x.replaceAt path ⟨d.1, y⟩) ∧
      x.replaceAt path d = x ∧
      (∀ (rest : List Nat) (z : AnyNode),
        (x.replaceAt (path ++ rest) z).replaceAt path ⟨d.1, y⟩ = x.replaceAt path ⟨d.1, y⟩) ∧
      (∀ (rest : List Nat) (z : AnyNode),
        (x.replaceAt path ⟨d.1, y⟩).replaceAt (path ++ rest) z =
          x.replaceAt path ⟨d.1, y.replaceAt rest z⟩) ∧
      ∀ (other : List Nat) (z : AnyNode), ¬ path <+: other → ¬ other <+: path →
        (x.replaceAt path ⟨d.1, y⟩).replaceAt other z =
          (x.replaceAt other z).replaceAt path ⟨d.1, y⟩ := by
  refine ⟨x.traverse_noting, fun index child found y => ?_, fun path d found y =>
    ⟨?_, ?_, fun rest z => ?_, fun rest z => ?_, fun other z above below => ?_⟩⟩
  · have put : (putting ⟨child.1, y⟩).apply child = ⟨child.1, y⟩ :=
      congrArg (Sigma.mk child.1) (putting_self ⟨child.1, y⟩ child.2)
    constructor
    · have placed := children_modifyChild_of_child? (putting ⟨child.1, y⟩) x found
      rwa [put] at placed
    · exact frame_modifyChild _ x index
  · have put : (putting ⟨d.1, y⟩).apply d = ⟨d.1, y⟩ :=
      congrArg (Sigma.mk d.1) (putting_self ⟨d.1, y⟩ d.2)
    have written := written_modifyAt x (putting ⟨d.1, y⟩) found
    rwa [put] at written
  · calc
      x.replaceAt path d = modifyAt path (fun _ m => m) k x := by
        refine modifyAt_congr x fun e there => ?_
        obtain rfl : d = e := Option.some.inj (found.symm.trans there)
        exact putting_self d d.2
      _ = x := modifyAt_id x
  · simp only [replaceAt, modifyAt_append, modifyAt_modifyAt]
    refine modifyAt_congr x fun e there => ?_
    obtain rfl : d = e := Option.some.inj (found.symm.trans there)
    exact (putting_self ⟨d.1, y⟩ _).trans (putting_self ⟨d.1, y⟩ _).symm
  · simp only [replaceAt, modifyAt_append, modifyAt_modifyAt]
    refine modifyAt_congr x fun e there => ?_
    obtain rfl : d = e := Option.some.inj (found.symm.trans there)
    rw [putting_self ⟨d.1, y⟩ d.2]
    exact (putting_self ⟨d.1, modifyAt rest (putting z) d.1 y⟩ d.2).symm
  · exact modifyAt_comm x above below

/-- A node with an empty property bag. -/
def bagged (k : Kind) : AnyNode :=
  ⟨k, (default k).setBag (some Dict.empty)⟩

/-- A step of a thread at a location. -/
def locatedStep : Node .threadFlowLocation :=
  (default .threadFlowLocation).set
    (.ofIndex 1 rfl : FieldOf .threadFlowLocation "location" (.optional (.node .location)))
    (some (default _))

/-- A thread with two strings in its immutable state and a step that stands between empty slots. -/
def sparseFlow : Node .threadFlow :=
  ((default .threadFlow).set
    (.ofIndex 3 rfl : FieldOf .threadFlow "immutableState"
      (.optional (.nodeMap .multiformatMessageString)))
    (some ⟨[("x", default _), ("y", default _)]⟩)).set ThreadFlow.locations
    [none, some locatedStep, none]

/-- In a thread the second string of its immutable state is replaced and put back, the step stays
the third child, and a location goes to its place in the step whether the string is replaced
before or after. -/
theorem replaceAt_lawful_sparseFlow :
    (sparseFlow.replaceAt [1] (bagged .multiformatMessageString)).children =
        [⟨.multiformatMessageString, default _⟩, bagged .multiformatMessageString,
          ⟨.threadFlowLocation, locatedStep⟩] ∧
      sparseFlow.replaceAt [1] ⟨.multiformatMessageString, default _⟩ = sparseFlow ∧
      (sparseFlow.replaceAt [1] (bagged .multiformatMessageString)).replaceAt [2, 0]
          (bagged .location) =
        (sparseFlow.replaceAt [2, 0] (bagged .location)).replaceAt [1]
          (bagged .multiformatMessageString) := by
  have children : sparseFlow.children =
      [⟨.multiformatMessageString, default _⟩, ⟨.multiformatMessageString, default _⟩,
        ⟨.threadFlowLocation, locatedStep⟩] := rfl
  have found : sparseFlow.child? 1 = some ⟨.multiformatMessageString, default _⟩ := by
    rw [child?, children]
    rfl
  have there : descendant? [1] ⟨.threadFlow, sparseFlow⟩ =
      some ⟨.multiformatMessageString, default _⟩ := by
    rw [descendant?_cons, found]
    rfl
  obtain ⟨_, atIndex, atPath⟩ := replaceAt_lawful sparseFlow
  obtain ⟨placed, _⟩ := atIndex 1 _ found (bagged .multiformatMessageString).2
  obtain ⟨_, restored, _, _, commute⟩ := atPath [1] _ there (bagged .multiformatMessageString).2
  rw [children] at placed
  exact ⟨placed, restored, commute [2, 0] (bagged .location) (by decide) (by decide)⟩

end Node
end Sarif
