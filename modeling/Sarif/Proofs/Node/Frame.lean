import Sarif.Node.Path
import Sarif.Proofs.Node.WellFormed

/-!
# Frames

The frame of a node is what it holds beside its children: its scalars, maps of scalars and property
bag, which fields are absent, which slots of a list are full, and the keys of a map in their order.
A node is its frame and its children (`Node.ext_frame`), and a traversal keeps the frame and takes
the children one by one (`Node.frame_traverse`, `Node.run_children`). Whatever changes nodes through
a traversal is thereby a matter of lists.
-/

namespace Sarif

/-! ## The frame of a node -/

/-- What a value of a type holds beside nodes. -/
abbrev Ty.Frame : Ty → Type
  | .flat f => f.Value
  | .node _ => Unit
  | .nodes _ => List Bool
  | .nodeMap _ => List String

/-- What a field holds beside nodes. -/
abbrev FieldType.Frame : FieldType → Type
  | .required t => t.Frame
  | .optional t => Option t.Frame

/-- What a list of fields holds beside nodes. -/
def Record.Frame : List Field → Type
  | [] => Unit
  | f :: fs => f.type.Frame × Record.Frame fs

/-- Which slots of a list are full. -/
def Slots.frame {k : Kind} : Slots k → List Bool
  | .nil => []
  | .empty rest => false :: rest.frame
  | .full _ rest => true :: rest.frame

/-- What a value holds beside nodes. -/
def Value.frame : {t : Ty} → Value t → t.Frame
  | _, .flat x => x
  | _, .node _ => ()
  | _, .nodes s => s.frame
  | _, .nodeMap e => e.keys

/-- What a field holds beside nodes. -/
def FieldValue.frame : {t : FieldType} → FieldValue t → t.Frame
  | _, .required v => v.frame
  | _, .absent => none
  | _, .present v => some v.frame

/-- What a record holds beside nodes. -/
def Record.frame : {fs : List Field} → Record fs → Record.Frame fs
  | _, .nil => ()
  | _, .cons v rest => (v.frame, rest.frame)

/-- What a node holds beside its children. -/
def Node.frame {k : Kind} (n : Node k) : Record.Frame k.fields :=
  n.fields.frame

/-! ## One field set -/

namespace Record

/-- A field of another name holds what it held. -/
theorem get_set_of_ne : {fs : List Field} → {f g : Field} → (r : Record fs) → (p : Place fs f) →
    (v : FieldValue f.type) → (q : Place fs g) → f.name ≠ g.name → (r.set p v).get q = r.get q
  | _, _, _, cons _ _, .here, _, .here, other => (other rfl).elim
  | _, _, _, cons _ _, .here, _, .later _, _ => rfl
  | _, _, _, cons _ _, .later _, _, .here, _ => rfl
  | _, _, _, cons _ rest, .later p, v, .later q, other => get_set_of_ne rest p v q other

/-- A field that holds the same children as before leaves those of the record as they are. -/
theorem children_set : {fs : List Field} → {f : Field} → (r : Record fs) → (p : Place fs f) →
    (v : FieldValue f.type) → v.children = (r.get p).children → (r.set p v).children = r.children
  | _, _, cons _ rest, .here, _, same => congrArg (· ++ rest.children) same
  | _, _, cons w rest, .later p, v, same => congrArg (w.children ++ ·) (children_set rest p v same)

end Record

/-- A field of another name has the content that it had. -/
theorem Node.get_set_of_ne {k : Kind} {f g : Field} (n : Node k) (p : Place k.fields f)
    (c : f.type.Content) (q : Place k.fields g) (other : f.name ≠ g.name) :
    (n.set p c).get q = n.get q :=
  congrArg FieldValue.content (n.fields.get_set_of_ne p _ q other)

/-! ## A node is its frame and its children -/

section Ext

variable {k : Kind}

/-- A list of nodes has a child for every full slot. -/
theorem Slots.length_children : (s : Slots k) → s.children.length = s.frame.count true
  | .nil => rfl
  | .empty rest => by simp [children, frame, length_children rest]
  | .full n rest => by simp [children, frame, length_children rest]

/-- A map of nodes has a child for every key. -/
theorem Entries.length_children : (e : Entries k) → e.children.length = e.keys.length
  | .nil => rfl
  | .cons key n rest => by simp [children, keys, length_children rest]

/-- Values of one frame have equally many children. -/
theorem Value.length_children_eq {t : Ty} {v w : Value t} (frames : v.frame = w.frame) :
    v.children.length = w.children.length := by
  cases v with
  | flat x =>
      cases w
      rfl
  | node n =>
      cases w
      rfl
  | nodes s =>
      cases w with
      | nodes t =>
          have frames : s.frame = t.frame := frames
          rw [children, children, s.length_children, t.length_children, frames]
  | nodeMap e =>
      cases w with
      | nodeMap d =>
          have keys : e.keys = d.keys := frames
          rw [children, children, e.length_children, d.length_children, keys]

/-- Fields of one frame have equally many children. -/
theorem FieldValue.length_children_eq {t : FieldType} {v w : FieldValue t}
    (frames : v.frame = w.frame) : v.children.length = w.children.length := by
  cases v with
  | required v =>
      cases w with
      | required w => exact Value.length_children_eq frames
  | absent =>
      cases w with
      | absent => rfl
      | present w => cases frames
  | present v =>
      cases w with
      | absent => cases frames
      | present w => exact Value.length_children_eq (Option.some.inj frames)

/-- A list of nodes is its frame and its children. -/
theorem Slots.ext_frame : (s t : Slots k) → s.frame = t.frame → s.children = t.children → s = t
  | .nil, t, frames, _ => by
      cases t with
      | nil => rfl
      | _ => cases frames
  | .empty rest, t, frames, same => by
      cases t with
      | empty more => rw [ext_frame rest more (List.cons.inj frames).2 same]
      | _ => cases frames
  | .full n rest, t, frames, same => by
      cases t with
      | full m more =>
          obtain ⟨head, tail⟩ := List.cons.inj same
          obtain rfl := eq_of_heq (Sigma.mk.inj head).2
          rw [ext_frame rest more (List.cons.inj frames).2 tail]
      | _ => cases frames

/-- A map of nodes is its keys and its children. -/
theorem Entries.ext_frame : (e d : Entries k) → e.keys = d.keys → e.children = d.children → e = d
  | .nil, d, keys, _ => by
      cases d with
      | nil => rfl
      | cons => cases keys
  | .cons key n rest, d, keys, same => by
      cases d with
      | nil => cases keys
      | cons other m more =>
          obtain ⟨rfl, later⟩ := List.cons.inj keys
          obtain ⟨head, tail⟩ := List.cons.inj same
          obtain rfl := eq_of_heq (Sigma.mk.inj head).2
          rw [ext_frame rest more later tail]

/-- A value is its frame and its children. -/
theorem Value.ext_frame {t : Ty} {v w : Value t} (frames : v.frame = w.frame)
    (same : v.children = w.children) : v = w := by
  cases v with
  | flat x =>
      cases w
      exact congrArg flat frames
  | node n =>
      cases w
      obtain ⟨head, _⟩ := List.cons.inj same
      exact congrArg node (eq_of_heq (Sigma.mk.inj head).2)
  | nodes s =>
      cases w
      exact congrArg nodes (Slots.ext_frame _ _ frames same)
  | nodeMap e =>
      cases w
      exact congrArg nodeMap (Entries.ext_frame _ _ frames same)

/-- A field is its frame and its children. -/
theorem FieldValue.ext_frame {t : FieldType} {v w : FieldValue t} (frames : v.frame = w.frame)
    (same : v.children = w.children) : v = w := by
  cases v with
  | required v =>
      cases w
      exact congrArg required (Value.ext_frame frames same)
  | absent =>
      cases w with
      | absent => rfl
      | present w => cases frames
  | present v =>
      cases w with
      | absent => cases frames
      | present w => exact congrArg present (Value.ext_frame (Option.some.inj frames) same)

/-- A record is its frame and its children. -/
theorem Record.ext_frame : {fs : List Field} → (r s : Record fs) → r.frame = s.frame →
    r.children = s.children → r = s
  | _, .nil, .nil, _, _ => rfl
  | _, .cons v rest, .cons w more, frames, same => by
      obtain ⟨first, later⟩ := Prod.mk.inj frames
      obtain ⟨head, tail⟩ := List.append_inj same (FieldValue.length_children_eq first)
      rw [FieldValue.ext_frame first head, ext_frame rest more later tail]

/-- A node is its frame and its children. -/
theorem Node.ext_frame {n m : Node k} (frames : n.frame = m.frame)
    (same : n.children = m.children) : n = m := by
  obtain ⟨fields⟩ := n
  obtain ⟨others⟩ := m
  exact congrArg mk (Record.ext_frame fields others frames same)

end Ext

/-! ## Traversals -/

section Traverse

variable {σ : Type} (step : ChildStep σ)

/-- Takes nodes one by one: what they become, and the state after them. -/
def ChildStep.run : List AnyNode → σ → List AnyNode × σ
  | [], state => ([], state)
  | x :: rest, state =>
    let first := step x.1 x.2 state
    let later := ChildStep.run rest first.2
    (⟨x.1, first.1⟩ :: later.1, later.2)

/-- Nodes are taken in order. -/
theorem ChildStep.run_append (xs ys : List AnyNode) (state : σ) :
    step.run (xs ++ ys) state =
      ((step.run xs state).1 ++ (step.run ys (step.run xs state).2).1,
        (step.run ys (step.run xs state).2).2) := by
  induction xs generalizing state with
  | nil => rfl
  | cons x xs inductionHypothesis => simp [run, inductionHypothesis]

variable {k : Kind}

/-- A traversal of a list keeps its empty slots in their places. -/
@[simp] theorem Slots.frame_traverse : (s : Slots k) → (state : σ) →
    (s.traverse step state).1.frame = s.frame
  | .nil, _ => rfl
  | .empty rest, state => congrArg (false :: ·) (frame_traverse rest state)
  | .full n rest, state => congrArg (true :: ·) (frame_traverse rest (step k n state).2)

/-- A traversal of a map keeps its keys. -/
@[simp] theorem Entries.keys_traverse : (e : Entries k) → (state : σ) →
    (e.traverse step state).1.keys = e.keys
  | .nil, _ => rfl
  | .cons key n rest, state => congrArg (key :: ·) (keys_traverse rest (step k n state).2)

/-- A traversal of a value keeps its frame. -/
@[simp] theorem Value.frame_traverse {t : Ty} (v : Value t) (state : σ) :
    (v.traverse step state).1.frame = v.frame := by
  cases v with
  | flat x => rfl
  | node n => rfl
  | nodes s => exact s.frame_traverse step state
  | nodeMap e => exact e.keys_traverse step state

/-- A traversal of a field keeps its frame. -/
@[simp] theorem FieldValue.frame_traverse {t : FieldType} (v : FieldValue t) (state : σ) :
    (v.traverse step state).1.frame = v.frame := by
  cases v with
  | required v => exact v.frame_traverse step state
  | absent => rfl
  | present v => exact congrArg some (v.frame_traverse step state)

/-- A traversal of a record keeps its frame. -/
@[simp] theorem Record.frame_traverse : {fs : List Field} → (r : Record fs) → (state : σ) →
    (r.traverse step state).1.frame = r.frame
  | _, .nil, _ => rfl
  | _, .cons v rest, state =>
      Prod.ext (v.frame_traverse step state) (frame_traverse rest (v.traverse step state).2)

/-- A traversal of a node keeps its frame. -/
@[simp] theorem Node.frame_traverse (n : Node k) (state : σ) :
    (n.traverse step state).1.frame = n.frame :=
  n.fields.frame_traverse step state

/-- A traversal of a list takes its nodes one by one. -/
theorem Slots.run_children : (s : Slots k) → (state : σ) →
    step.run s.children state =
      ((s.traverse step state).1.children, (s.traverse step state).2)
  | .nil, _ => rfl
  | .empty rest, state => run_children rest state
  | .full n rest, state => by
      simp only [children, ChildStep.run, run_children rest]
      rfl

/-- A traversal of a map takes its nodes one by one. -/
theorem Entries.run_children : (e : Entries k) → (state : σ) →
    step.run e.children state =
      ((e.traverse step state).1.children, (e.traverse step state).2)
  | .nil, _ => rfl
  | .cons key n rest, state => by
      simp only [children, ChildStep.run, run_children rest]
      rfl

/-- A traversal of a value takes its nodes one by one. -/
theorem Value.run_children {t : Ty} (v : Value t) (state : σ) :
    step.run v.children state =
      ((v.traverse step state).1.children, (v.traverse step state).2) := by
  cases v with
  | flat x => rfl
  | node n => rfl
  | nodes s => exact s.run_children step state
  | nodeMap e => exact e.run_children step state

/-- A traversal of a field takes its nodes one by one. -/
theorem FieldValue.run_children {t : FieldType} (v : FieldValue t) (state : σ) :
    step.run v.children state =
      ((v.traverse step state).1.children, (v.traverse step state).2) := by
  cases v with
  | required v => exact v.run_children step state
  | absent => rfl
  | present v => exact v.run_children step state

/-- A traversal of a record takes its nodes one by one. -/
theorem Record.run_children : {fs : List Field} → (r : Record fs) → (state : σ) →
    step.run r.children state =
      ((r.traverse step state).1.children, (r.traverse step state).2)
  | _, .nil, _ => rfl
  | _, .cons v rest, state => by
      simp only [children, ChildStep.run_append, v.run_children, run_children rest]
      rfl

/-- A traversal of a node takes its children one by one. -/
theorem Node.run_children (n : Node k) (state : σ) :
    step.run n.children state =
      ((n.traverse step state).1.children, (n.traverse step state).2) :=
  n.fields.run_children step state

/-- A traversal that leaves every child as it is leaves the node as it is. -/
theorem Node.traverse_eq_of_run {n : Node k} {before after : σ}
    (unchanged : step.run n.children before = (n.children, after)) :
    n.traverse step before = (n, after) := by
  rw [run_children] at unchanged
  obtain ⟨same, state⟩ := Prod.mk.inj unchanged
  exact Prod.ext (ext_frame (n.frame_traverse step before) same) state

end Traverse
end Sarif
