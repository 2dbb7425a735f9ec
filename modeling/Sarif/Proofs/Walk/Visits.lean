import Mathlib.Data.List.Basic
import Sarif.Proofs.Node.Tree
import Sarif.Walk

/-!
# What a walk visits

A visitor that notes its calls walks as it would without noting them. What it notes falls into
visits, each of which is the call for a node and, unless that call goes no further, the call for
nodes of its kind alone. `Visitor.walk_recording` says which visits these are: they follow the paths
below the node in lexicographic order, and leave out a path exactly if a visit above it goes no
further. Whether a call goes on may depend on all that the visitor has seen.
-/

namespace Sarif

/-! ## Calls and visits -/

/-- The hooks of a visitor. -/
inductive Hook where
  | node
  | result
  | location
  | artifactLocation
  | region
  | message
  deriving DecidableEq, Repr

/-- The hook for nodes of a kind alone, if the kind has one. -/
def Hook.typed? : Kind → Option Hook
  | .result => some .result
  | .location => some .location
  | .artifactLocation => some .artifactLocation
  | .region => some .region
  | .message => some .message
  | _ => none

/-- A call of a hook with a node, and whether it goes on. -/
structure Call where
  hook : Hook
  node : AnyNode
  onward : Bool

/-- A visit of the node at a path: whether the call for a node goes on, and whether the call for
nodes of its kind alone does, if there is one. -/
structure Visit where
  path : List Nat
  node : AnyNode
  onward : Bool
  typedOnward : Bool

namespace Visit

/-- The call for nodes of a kind alone, if the kind has one. -/
def typedCalls (visit : Visit) : List Call :=
  (Hook.typed? visit.node.1).toList.map fun hook => ⟨hook, visit.node, visit.typedOnward⟩

/-- The calls of a visit: the one for a node and, if it goes on, directly after it the one for nodes
of its kind alone. -/
def calls (visit : Visit) : List Call :=
  ⟨.node, visit.node, visit.onward⟩ :: if visit.onward then visit.typedCalls else []

/-- No call of the visit goes no further. -/
def GoesOn (visit : Visit) : Prop :=
  ∀ call ∈ visit.calls, call.onward = true

/-- The visit is not above a path, or it goes on. -/
def Allows (visit : Visit) (path : List Nat) : Prop :=
  visit.path <+: path → visit.path ≠ path → visit.GoesOn

/-- The visit at another path. -/
def moved (move : List Nat → List Nat) (visit : Visit) : Visit :=
  { visit with path := move visit.path }

/-- The visits of the nodes below a first child and of those below the children after it, each with
the index of its child. -/
def joined (visits more : List Visit) : List Visit :=
  visits.map (moved (0 :: ·)) ++ more.map (moved (List.modifyHead (· + 1)))

section Moved

variable {visit : Visit} {index : Nat} {path : List Nat}

/-- The paths of visits at other paths. -/
theorem map_path_moved (move : List Nat → List Nat) (visits : List Visit) :
    (visits.map (moved move)).map Visit.path = (visits.map Visit.path).map move := by
  rw [List.map_map, List.map_map]
  rfl

/-- The paths of joined visits. -/
theorem map_path_joined (visits more : List Visit) :
    (joined visits more).map Visit.path =
      (visits.map Visit.path).map (0 :: ·) ++
        (more.map Visit.path).map (List.modifyHead (· + 1)) := by
  rw [joined, List.map_append, map_path_moved, map_path_moved]

/-- What holds of joined visits holds of both parts. -/
theorem forall_mem_joined {visits more : List Visit} {holds : Visit → Prop} :
    (∀ visit ∈ joined visits more, holds visit) ↔
      (∀ visit ∈ visits, holds (visit.moved (0 :: ·))) ∧
        ∀ visit ∈ more, holds (visit.moved (List.modifyHead (· + 1))) := by
  rw [joined, List.forall_mem_append, List.forall_mem_map, List.forall_mem_map]

/-- Visits that are joined make the calls that they make apart. -/
theorem flatMap_calls_joined (visits more : List Visit) :
    (joined visits more).flatMap calls = visits.flatMap calls ++ more.flatMap calls := by
  rw [joined, List.flatMap_append, List.flatMap_map, List.flatMap_map]
  rfl

/-- Paths that are alike one index on are alike. -/
theorem modifyHead_succ_injective :
    Function.Injective (List.modifyHead (· + 1) : List Nat → List Nat) := by
  rintro (_ | ⟨index, path⟩) (_ | ⟨other, rest⟩) same <;> simp_all

/-- Paths stay in their order one index on. -/
theorem modifyHead_succ_lt {path other : List Nat} (less : path < other) :
    path.modifyHead (· + 1) < other.modifyHead (· + 1) := by
  cases path <;> cases other <;> simp_all [List.cons_lt_cons_iff]

/-- A visit of the root allows what is below if it goes on. -/
theorem allows_iff_of_root (root : visit.path = []) :
    visit.Allows (index :: path) ↔ visit.GoesOn := by
  simp [Allows, root]

/-- A visit that is not above a path allows it. -/
theorem allows_of_not_prefix (apart : ¬ visit.path <+: path) : visit.Allows path :=
  fun above => absurd above apart

/-- A visit allows below an index what it allows without the index. -/
theorem allows_moved_cons :
    (visit.moved (index :: ·)).Allows (index :: path) ↔ visit.Allows path := by
  simp only [Allows, moved, List.cons_prefix_cons, true_and, ne_eq, List.cons.injEq]
  rfl

/-- A visit one index on allows one index on what it allows. -/
theorem allows_moved_succ :
    (visit.moved (List.modifyHead (· + 1))).Allows ((index + 1) :: path) ↔
      visit.Allows (index :: path) := by
  obtain ⟨other, node, onward, typedOnward⟩ := visit
  cases other with
  | nil => simp [Allows, moved, GoesOn, calls, typedCalls]
  | cons first other =>
      simp only [Allows, moved, List.modifyHead_cons, List.cons_prefix_cons,
        Nat.add_right_cancel_iff, ne_eq, List.cons.injEq]
      rfl

end Moved
end Visit

/-! ## Coverage -/

/-- The visits are those of the nodes that `at?` gives for paths, as far as visits go on. -/
structure Covers (at? : List Nat → Option AnyNode) (visits : List Visit) : Prop where
  /-- Visits follow the lexicographic order of their paths, so that no two are at one path. -/
  ordered : (visits.map Visit.path).Pairwise (· < ·)
  /-- A visit is of the node at its path. -/
  located : ∀ visit ∈ visits, at? visit.path = some visit.node
  /-- A path is visited exactly if there is a node and all visits above it go on. -/
  reached : ∀ path, path ∈ visits.map Visit.path ↔
    (at? path).isSome ∧ ∀ visit ∈ visits, visit.Allows path

namespace Covers

variable {at? first rest below : List Nat → Option AnyNode} {visit : Visit}
  {visits more : List Visit}

/-- Where there are no nodes there are no visits. -/
theorem nil (nowhere : ∀ path, at? path = none) : Covers at? [] where
  ordered := .nil
  located _ among := by cases among
  reached path := by simp [nowhere path]

/-- A visit that goes no further is alone. -/
theorem stopped (root : visit.path = []) (here : at? [] = some visit.node)
    (stops : ¬ visit.GoesOn) : Covers at? [visit] where
  ordered := List.pairwise_singleton ..
  located other among := by
    obtain rfl := List.mem_singleton.mp among
    rw [root, here]
  reached path := by
    rw [List.map_singleton, root, List.mem_singleton, List.forall_mem_singleton]
    cases path with
    | nil => simp [here, Visit.Allows, root]
    | cons index path => simp [Visit.allows_iff_of_root root, stops]

/-- The nodes below a node have no empty path. -/
theorem path_ne_nil (covers : Covers below visits) (nowhere : below [] = none)
    (among : visit ∈ visits) : visit.path ≠ [] := by
  intro root
  have found := covers.located visit among
  rw [root, nowhere] at found
  cases found

/-- A path to a node below a node starts with an index. -/
theorem exists_path_eq (covers : Covers below visits) (nowhere : below [] = none)
    (among : visit ∈ visits) : ∃ index path, visit.path = index :: path :=
  List.exists_cons_of_ne_nil (covers.path_ne_nil nowhere among)

/-- A visit that goes on comes before those of the nodes below. -/
theorem onward (root : visit.path = []) (here : at? [] = some visit.node)
    (there : ∀ index path, at? (index :: path) = below (index :: path))
    (nowhere : below [] = none) (goesOn : visit.GoesOn) (covers : Covers below visits) :
    Covers at? (visit :: visits) where
  ordered := by
    rw [List.map_cons, root]
    refine .cons (List.forall_mem_map.mpr fun other among => ?_) covers.ordered
    obtain ⟨index, path, eq⟩ := covers.exists_path_eq nowhere among
    rw [eq]
    exact List.nil_lt_cons index path
  located := by
    refine List.forall_mem_cons.mpr ⟨by rw [root, here], fun other among => ?_⟩
    obtain ⟨index, path, eq⟩ := covers.exists_path_eq nowhere among
    rw [← covers.located other among, eq, there]
  reached path := by
    rw [List.map_cons, root, List.mem_cons, List.forall_mem_cons]
    cases path with
    | nil =>
        have above : ∀ other ∈ visits, other.Allows [] := fun other _ part apart =>
          absurd (List.prefix_nil.mp part) apart
        simpa [here, Visit.Allows, root] using above
    | cons index path =>
        rw [there, covers.reached (index :: path), Visit.allows_iff_of_root root]
        simp [goesOn]

/-- One index on, the nodes below a node have no path through the first child. -/
theorem not_prefix_zero (covers : Covers below visits) (nowhere : below [] = none)
    (among : visit ∈ visits) (path : List Nat) :
    ¬ visit.path.modifyHead (· + 1) <+: 0 :: path := by
  intro above
  obtain ⟨index, other, eq⟩ := covers.exists_path_eq nowhere among
  rw [eq, List.modifyHead_cons, List.cons_prefix_cons] at above
  exact index.succ_ne_zero above.1

/-- Visits that cover the nodes below a first child and below the children after it cover together
the nodes below all. -/
theorem joined (nowhere : at? [] = none) (zero : ∀ path, at? (0 :: path) = first path)
    (succ : ∀ index path, at? ((index + 1) :: path) = rest (index :: path))
    (outside : rest [] = none) (here : Covers first visits) (later : Covers rest more) :
    Covers at? (Visit.joined visits more) where
  ordered := by
    rw [Visit.map_path_joined, List.pairwise_append, List.forall_mem_map]
    refine ⟨here.ordered.map _ fun _ _ less => List.cons_lt_cons_iff.mpr (.inr ⟨rfl, less⟩),
      later.ordered.map _ fun _ _ => Visit.modifyHead_succ_lt, fun path _ => ?_⟩
    rw [List.map_map, List.forall_mem_map]
    intro visit among
    obtain ⟨index, other, eq⟩ := later.exists_path_eq outside among
    rw [Function.comp, eq, List.modifyHead_cons]
    exact List.cons_lt_cons_iff.mpr (.inl index.succ_pos)
  located := by
    refine Visit.forall_mem_joined.mpr
      ⟨fun visit among => (zero visit.path).trans (here.located visit among), ?_⟩
    intro visit among
    obtain ⟨index, path, eq⟩ := later.exists_path_eq outside among
    have found := later.located visit among
    rw [eq, ← succ] at found
    rwa [Visit.moved, eq, List.modifyHead_cons]
  reached path := by
    rw [Visit.map_path_joined, List.mem_append, Visit.forall_mem_joined]
    match path with
    | [] =>
        have inside : ∀ visit ∈ more, visit.path ≠ [] := fun visit => later.path_ne_nil outside
        simpa [nowhere] using inside
    | 0 :: path =>
        have elsewhere : 0 :: path ∉ (more.map Visit.path).map (List.modifyHead (· + 1)) := by
          rw [List.map_map, List.mem_map]
          rintro ⟨visit, among, eq⟩
          exact later.not_prefix_zero outside among path (eq ▸ List.prefix_rfl)
        have allowed : ∀ visit ∈ more,
            (visit.moved (List.modifyHead (· + 1))).Allows (0 :: path) := fun visit among =>
          Visit.allows_of_not_prefix (later.not_prefix_zero outside among path)
        simp only [List.mem_map_of_injective List.cons_injective, elsewhere, or_false, zero,
          here.reached path, Visit.allows_moved_cons, and_iff_left allowed]
    | (index + 1) :: path =>
        have elsewhere : (index + 1) :: path ∉ (visits.map Visit.path).map (0 :: ·) := by
          simp
        have allowed : ∀ visit ∈ visits, (visit.moved (0 :: ·)).Allows ((index + 1) :: path) :=
          fun visit _ => Visit.allows_of_not_prefix fun above =>
            index.succ_ne_zero (List.cons_prefix_cons.mp above).1.symm
        have moved : (index + 1) :: path ∈ (more.map Visit.path).map (List.modifyHead (· + 1)) ↔
            index :: path ∈ more.map Visit.path :=
          List.mem_map_of_injective (a := index :: path) Visit.modifyHead_succ_injective
        simp only [elsewhere, false_or, moved, succ, later.reached, Visit.allows_moved_succ,
          and_iff_right allowed]

end Covers

/-! ## Recording -/

/-- What a hook answers, with its call noted after those before it. -/
def noted {σ : Type} (hook : Hook) (x : AnyNode) (before : List Call) (answer : σ × Bool) :
    (σ × List Call) × Bool :=
  ((answer.1, before ++ [⟨hook, x, answer.2⟩]), answer.2)

namespace Visitor

variable {σ : Type} (v : Visitor σ)

/-- The visitor that does the same and notes each of its calls. -/
def recording : Visitor (σ × List Call) where
  node x state := noted .node x state.2 (v.node x state.1)
  result n state := noted .result ⟨_, n⟩ state.2 (v.result n state.1)
  location n state := noted .location ⟨_, n⟩ state.2 (v.location n state.1)
  artifactLocation n state :=
    noted .artifactLocation ⟨_, n⟩ state.2 (v.artifactLocation n state.1)
  region n state := noted .region ⟨_, n⟩ state.2 (v.region n state.1)
  message n state := noted .message ⟨_, n⟩ state.2 (v.message n state.1)

/-- The visit of a node at the root. -/
def visit (x : AnyNode) (state : σ) : Visit :=
  ⟨[], x, (v.node x state).2, (v.typed x (v.node x state).1).2⟩

/-- The call for nodes of a kind alone is noted, if there is one. -/
theorem typed_recording (x : AnyNode) (state : σ) (before : List Call) :
    v.recording.typed x (state, before) =
      (((v.typed x state).1, before ++ (Hook.typed? x.1).toList.map
        fun hook => ⟨hook, x, (v.typed x state).2⟩), (v.typed x state).2) := by
  obtain ⟨k, n⟩ := x
  cases k <;> simp [typed, recording, noted, Hook.typed?]

/-- The calls of the visit of a node are noted. -/
theorem enter_recording (x : AnyNode) (state : σ) (before : List Call) :
    v.recording.enter x (state, before) =
      (((v.enter x state).1, before ++ (v.visit x state).calls), (v.enter x state).2) := by
  have called : v.recording.node x (state, before) = noted .node x before (v.node x state) := rfl
  cases onward : (v.node x state).2 with
  | false => simp [enter, called, noted, onward, visit, Visit.calls]
  | true =>
      simp [enter, called, noted, onward, visit, Visit.calls, Visit.typedCalls, typed_recording]

/-- A kind without a call of its own goes on. -/
theorem typed_of_none {x : AnyNode} (none : Hook.typed? x.1 = none) (state : σ) :
    v.typed x state = (state, true) := by
  obtain ⟨k, n⟩ := x
  cases k <;> first | rfl | cases none

/-- The walk goes into the children of a node if the visit of the node goes on. -/
theorem enter_onward_iff (x : AnyNode) (state : σ) :
    (v.enter x state).2 = true ↔ (v.visit x state).GoesOn := by
  cases onward : (v.node x state).2 with
  | false => simp [enter, onward, visit, Visit.GoesOn, Visit.calls]
  | true =>
      cases own : Hook.typed? x.1 with
      | none =>
          simp [enter, onward, visit, Visit.GoesOn, Visit.calls, Visit.typedCalls, own,
            v.typed_of_none own]
      | some hook =>
          simp [enter, onward, visit, Visit.GoesOn, Visit.calls, Visit.typedCalls, own]

mutual

/-- A walk through a tree notes the calls of visits that cover the tree. -/
theorem walkTree_recording : (t : Tree AnyNode) → (state : σ) → (before : List Call) →
    ∃ visits, v.recording.walkTree t (state, before) =
        (v.walkTree t state, before ++ visits.flatMap Visit.calls) ∧
      Covers (fun path => t.at? path) visits
  | .node x below, state, before => by
      rw [walkTree, walkTree, enter_recording]
      by_cases onward : (v.enter x state).2 = true
      · obtain ⟨visits, walked, covers⟩ := walkTrees_recording below (v.enter x state).1
          (before ++ (v.visit x state).calls)
        refine ⟨v.visit x state :: visits, ?_, ?_⟩
        · simp [onward, walked]
        · exact covers.onward rfl rfl (fun _ _ => rfl) rfl ((v.enter_onward_iff x state).mp onward)
      · refine ⟨[v.visit x state], ?_, ?_⟩
        · simp [onward]
        · exact .stopped rfl rfl fun goesOn => onward ((v.enter_onward_iff x state).mpr goesOn)

/-- A walk through a run of trees notes the calls of visits that cover the run. -/
theorem walkTrees_recording : (ts : List (Tree AnyNode)) → (state : σ) → (before : List Call) →
    ∃ visits, v.recording.walkTrees ts (state, before) =
        (v.walkTrees ts state, before ++ visits.flatMap Visit.calls) ∧
      Covers (Tree.atOf? ts) visits
  | [], state, before => by
      refine ⟨[], ?_, .nil fun path => ?_⟩
      · simp [walkTrees]
      · cases path <;> rfl
  | t :: rest, state, before => by
      obtain ⟨visits, walked, here⟩ := walkTree_recording t state before
      obtain ⟨more, onward, later⟩ := walkTrees_recording rest (v.walkTree t state)
        (before ++ visits.flatMap Visit.calls)
      refine ⟨Visit.joined visits more, ?_, ?_⟩
      · rw [walkTrees, walkTrees, walked, onward, Visit.flatMap_calls_joined, List.append_assoc]
      · exact here.joined rfl (fun _ => rfl) (fun _ _ => rfl) rfl later

end

/-- A visitor that notes its calls ends as it would without. What it notes are the calls of visits:
of each, the call for a node and, unless that goes no further, directly after it the call for nodes
of its kind alone. The visits are those of the nodes at the paths below the node, in lexicographic
order, each path once, without exactly those below a visit that goes no further. -/
theorem walk_recording {k : Kind} (x : Node k) (state : σ) :
    (v.recording.walk x (state, [])).1 = v.walk x state ∧
    ∃ visits : List Visit,
      (v.recording.walk x (state, [])).2 = visits.flatMap Visit.calls ∧
      Covers (fun path => Node.descendant? path ⟨k, x⟩) visits := by
  obtain ⟨visits, walked, covers⟩ := v.walkTree_recording x.tree state []
  refine ⟨by rw [walk, walked, walk], visits, by rw [walk, walked, List.nil_append], ?_⟩
  have places : (fun path => x.tree.at? path) = fun path => Node.descendant? path ⟨k, x⟩ :=
    funext fun path => Node.at?_tree path ⟨k, x⟩
  rwa [places] at covers

end Visitor
end Sarif
