import Sarif.Proofs.Node.Frame
import Sarif.Proofs.Walk.Visits

/-!
# Editors that change nothing

An editor that makes the calls of a visitor and changes nothing goes the way of the visitor and
leaves the node as it is, frame and children. `Visitor.edit_recording` says so of the calls that
both note: the same hooks are called with the same nodes in the same order and answer the same.
-/

namespace Sarif

variable {σ : Type} {k : Kind}

/-- What an editor's hook answers, with its call noted after those before it. -/
def Edited.noted (hook : Hook) (x : AnyNode) (before : List Call) (edited : Edited k σ) :
    Edited k (σ × List Call) :=
  ⟨edited.node, (edited.state, before ++ [⟨hook, x, edited.onward⟩]), edited.onward⟩

/-- The editor that does the same and notes each of its calls, with the node that it is handed. -/
def Editor.recording (e : Editor σ) : Editor (σ × List Call) where
  node k n state := (e.node k n state.1).noted .node ⟨k, n⟩ state.2
  result n state := (e.result n state.1).noted .result ⟨_, n⟩ state.2
  location n state := (e.location n state.1).noted .location ⟨_, n⟩ state.2
  artifactLocation n state :=
    (e.artifactLocation n state.1).noted .artifactLocation ⟨_, n⟩ state.2
  region n state := (e.region n state.1).noted .region ⟨_, n⟩ state.2
  message n state := (e.message n state.1).noted .message ⟨_, n⟩ state.2

namespace Visitor

variable (v : Visitor σ)

/-- It is the same to note the calls of a visitor and those of its editor. -/
theorem toEditor_recording : v.toEditor.recording = v.recording.toEditor := rfl

/-- A walk calls for the node and goes into the trees below its children. -/
theorem walk_eq (n : Node k) (state : σ) :
    v.walk n state =
      if (v.enter ⟨k, n⟩ state).2 then
        v.walkTrees (n.children.map fun child => child.2.tree) (v.enter ⟨k, n⟩ state).1
      else (v.enter ⟨k, n⟩ state).1 := by
  rw [walk, n.tree_eq, walkTree]

/-- The editor of a visitor makes the visitor's call for nodes of a kind alone. -/
theorem typed_toEditor (n : Node k) (state : σ) :
    v.toEditor.typed k n state =
      ⟨n, (v.typed ⟨k, n⟩ state).1, (v.typed ⟨k, n⟩ state).2⟩ := by
  cases k <;> rfl

/-- The editor of a visitor makes the visitor's calls for a node. -/
theorem enter_toEditor (n : Node k) (state : σ) :
    v.toEditor.enter k n state =
      ⟨n, (v.enter ⟨k, n⟩ state).1, (v.enter ⟨k, n⟩ state).2⟩ := by
  cases onward : (v.node ⟨k, n⟩ state).2 with
  | false => simp [Editor.enter, toEditor, enter, onward]
  | true =>
      have called : v.toEditor.node k n state =
          ⟨n, (v.node ⟨k, n⟩ state).1, (v.node ⟨k, n⟩ state).2⟩ := rfl
      simp [Editor.enter, called, enter, onward, typed_toEditor]

/-- A step that walks and changes nothing takes a list of nodes as a walk takes their trees. -/
theorem run_eq_walkTrees {step : ChildStep σ} (xs : List AnyNode)
    (walks : ∀ x ∈ xs, ∀ state, step x.1 x.2 state = (x.2, v.walk x.2 state)) (state : σ) :
    step.run xs state = (xs, v.walkTrees (xs.map fun x => x.2.tree) state) := by
  induction xs generalizing state with
  | nil => rfl
  | cons x xs inductionHypothesis =>
      obtain ⟨first, later⟩ := List.forall_mem_cons.mp walks
      rw [ChildStep.run, first, inductionHypothesis later]
      rfl

/-- With a bound that the tree fits into, the editor of a visitor walks and changes nothing. -/
theorem editWithin_toEditor (bound : Nat) (n : Node k) (enough : n.depth ≤ bound) (state : σ) :
    v.toEditor.editWithin bound k n state = (n, v.walk n state) := by
  induction bound generalizing k state with
  | zero =>
      rw [Node.depth, n.tree_eq, Tree.depth] at enough
      exact absurd enough (Nat.not_succ_le_zero _)
  | succ bound inductionHypothesis =>
      rw [Editor.editWithin, enter_toEditor, walk_eq]
      by_cases onward : (v.enter ⟨k, n⟩ state).2 = true
      · rw [if_pos onward, if_pos onward]
        refine n.traverse_eq_of_run _
          (v.run_eq_walkTrees n.children (fun child among state => ?_) _)
        have shallower := n.depth_lt_of_child among
        exact inductionHypothesis child.2 (by omega) state
      · rw [if_neg onward, if_neg onward]

/-- The editor of a visitor walks and changes nothing. -/
theorem edit_toEditor (n : Node k) (state : σ) : v.toEditor.edit n state = (n, v.walk n state) :=
  v.editWithin_toEditor n.depth n (Nat.le_refl _) state

/-- The editor of a visitor leaves the node as it is, and notes the calls that the visitor notes:
the same hooks, called with the same nodes in the same order, and going on at the same calls. -/
theorem edit_recording (x : Node k) (state : σ) :
    v.toEditor.recording.edit x (state, []) = (x, v.recording.walk x (state, [])) := by
  rw [toEditor_recording]
  exact v.recording.edit_toEditor x (state, [])

end Visitor
end Sarif
