import Sarif.Node.Path
import Sarif.Proofs.Node.Related

/-!
# What holds of every part of a node

A predicate that `Each` lifts to every place of a node holds of what its fields hold, and goes
over to the node with such content in a field (`Node.Each.get`, `Node.Each.set`). It holds of the
children and of the nodes below them, and goes over to the node with one of these replaced by
another of which it holds (`Node.Each.descendant`, `Node.Each.replaceAt`). So an invariant of
nodes that is an instance of `Each` need not be taken apart to be followed through what operations
do to nodes.
-/

namespace Sarif

section EachPart

variable {scalar : (s : Scalar) → s.Value → Prop} {keys : List String → Prop}

/-! ## Fields -/

variable (scalar keys) in
/-- `scalar` holds of every scalar of the content of a type, and `keys` of the keys of every map. -/
def Ty.Each : (t : Ty) → t.Content → Prop
  | .flat f, x => Flat.Each scalar keys f x
  | .node _, n => Node.Each scalar keys n
  | .nodes k, l => ∀ slot ∈ (l : List (Option (Node k))), ∀ n ∈ slot, n.Each scalar keys
  | .nodeMap _, d => keys (Dict.keys d) ∧ ∀ entry ∈ Dict.entries d, entry.2.Each scalar keys

variable (scalar keys) in
/-- `scalar` holds of every scalar of the content of a field, and `keys` of the keys of every map.
-/
def FieldType.Each : (t : FieldType) → t.Content → Prop
  | .required t, x => t.Each scalar keys x
  | .optional t, c => ∀ x ∈ (c : Option t.Content), t.Each scalar keys x

/-- What holds throughout a list of nodes holds throughout the node of each slot. -/
theorem Slots.each_iff {k : Kind} : (s : Slots k) →
    (s.Each scalar keys ↔ ∀ slot ∈ s.toList, ∀ n ∈ slot, n.Each scalar keys)
  | .nil => by simp [Slots.Each, toList]
  | .empty rest => by simp [Slots.Each, toList, each_iff rest]
  | .full n rest => by simp [Slots.Each, toList, each_iff rest]

/-- A predicate holds throughout a value if it does throughout its content. -/
theorem Value.each_iff_content {t : Ty} (v : Value t) :
    v.Each scalar keys ↔ t.Each scalar keys v.content := by
  cases v with
  | flat x => rfl
  | node n => rfl
  | nodes s => exact s.each_iff
  | nodeMap e => exact and_congr (iff_of_eq (congrArg keys e.keys_eq_toList)) e.each_iff

/-- A predicate holds throughout a field if it does throughout its content. -/
theorem FieldValue.each_iff_content {t : FieldType} (v : FieldValue t) :
    v.Each scalar keys ↔ t.Each scalar keys v.content := by
  cases v with
  | required v => exact v.each_iff_content
  | absent => exact iff_of_true trivial fun _ held => nomatch held
  | present v =>
      refine v.each_iff_content.trans ⟨fun each x held => ?_, fun each => each _ rfl⟩
      exact Option.some.inj held ▸ each

/-- What holds throughout a record holds throughout each field. -/
theorem Record.Each.get : {fs : List Field} → {f : Field} → {r : Record fs} →
    r.Each scalar keys → (place : Place fs f) → (r.get place).Each scalar keys
  | _, _, .cons _ _, each, .here => each.1
  | _, _, .cons _ _, each, .later place => Record.Each.get each.2 place

/-- What holds throughout a record and a value holds throughout the record with the value in a
field. -/
theorem Record.Each.set : {fs : List Field} → {f : Field} → {r : Record fs} →
    r.Each scalar keys → (place : Place fs f) → {v : FieldValue f.type} → v.Each scalar keys →
    (r.set place v).Each scalar keys
  | _, _, .cons _ _, each, .here, _, held => ⟨held, each.2⟩
  | _, _, .cons _ _, each, .later place, _, held => ⟨each.1, Record.Each.set each.2 place held⟩

/-! ## Children -/

variable {k : Kind}

/-- What holds throughout a list of nodes holds throughout each of them. -/
theorem Slots.Each.child : {s : Slots k} → s.Each scalar keys → ∀ child ∈ s.children,
    child.2.Each scalar keys
  | .nil, _, _, among => nomatch among
  | .empty rest, each, child, among => Slots.Each.child (s := rest) each child among
  | .full _ _, each, child, among => by
      rcases List.mem_cons.mp among with rfl | later
      · exact each.1
      · exact Slots.Each.child each.2 child later

/-- What holds throughout a map of nodes holds throughout each of them. -/
theorem Entries.Each.child : {e : Entries k} → e.Each scalar keys → ∀ child ∈ e.children,
    child.2.Each scalar keys
  | .nil, _, _, among => nomatch among
  | .cons _ _ _, each, child, among => by
      rcases List.mem_cons.mp among with rfl | later
      · exact each.1
      · exact Entries.Each.child each.2 child later

/-- What holds throughout a value holds throughout the nodes that it holds. -/
theorem Value.Each.child {t : Ty} {v : Value t} (each : v.Each scalar keys) :
    ∀ child ∈ v.children, child.2.Each scalar keys := by
  cases v with
  | flat x => exact fun _ among => nomatch among
  | node n =>
      intro child among
      obtain rfl := List.mem_singleton.mp among
      exact each
  | nodes s => exact Slots.Each.child each
  | nodeMap e => exact Entries.Each.child each.2

/-- What holds throughout a field holds throughout the nodes that it holds. -/
theorem FieldValue.Each.child {t : FieldType} {v : FieldValue t} (each : v.Each scalar keys) :
    ∀ child ∈ v.children, child.2.Each scalar keys := by
  cases v with
  | required v => exact Value.Each.child each
  | absent => exact fun _ among => nomatch among
  | present v => exact Value.Each.child each

/-- What holds throughout a record holds throughout the nodes that it holds. -/
theorem Record.Each.child : {fs : List Field} → {r : Record fs} → r.Each scalar keys →
    ∀ child ∈ r.children, child.2.Each scalar keys
  | _, .nil, _, _, among => nomatch among
  | _, .cons _ _, each, child, among => by
      rcases List.mem_append.mp among with head | tail
      · exact FieldValue.Each.child each.1 child head
      · exact Record.Each.child each.2 child tail

/-! ## Traversals -/

section Traverse

variable {σ : Type} {step : ChildStep σ}
  (kept : ∀ (k : Kind) (n : Node k) (state : σ), n.Each scalar keys →
    (step k n state).1.Each scalar keys)
include kept

/-- A traversal whose step keeps what holds of nodes keeps it of a list. -/
theorem Slots.Each.traverse : {s : Slots k} → s.Each scalar keys → (state : σ) →
    (s.traverse step state).1.Each scalar keys
  | .nil, _, _ => trivial
  | .empty rest, each, state => Slots.Each.traverse (s := rest) each state
  | .full n _, each, state => ⟨kept k n state each.1, Slots.Each.traverse each.2 _⟩

/-- A traversal whose step keeps what holds of nodes keeps it of the nodes of a map, and the keys.
-/
theorem Entries.Each.traverse : {e : Entries k} → e.Each scalar keys → (state : σ) →
    (e.traverse step state).1.keys = e.keys ∧ (e.traverse step state).1.Each scalar keys
  | .nil, _, _ => ⟨rfl, trivial⟩
  | .cons key n rest, each, state => by
      obtain ⟨same, later⟩ := Entries.Each.traverse each.2 (step k n state).2
      exact ⟨congrArg (key :: ·) same, kept k n state each.1, later⟩

/-- A traversal whose step keeps what holds of nodes keeps it of a value. -/
theorem Value.Each.traverse {t : Ty} {v : Value t} (each : v.Each scalar keys) (state : σ) :
    (v.traverse step state).1.Each scalar keys := by
  cases v with
  | flat x => exact each
  | node n => exact kept _ n state each
  | nodes s => exact Slots.Each.traverse kept each state
  | nodeMap e =>
      obtain ⟨same, later⟩ := Entries.Each.traverse kept each.2 state
      exact ⟨same.symm ▸ each.1, later⟩

/-- A traversal whose step keeps what holds of nodes keeps it of a field. -/
theorem FieldValue.Each.traverse {t : FieldType} {v : FieldValue t} (each : v.Each scalar keys)
    (state : σ) : (v.traverse step state).1.Each scalar keys := by
  cases v with
  | required v => exact Value.Each.traverse kept each state
  | absent => exact each
  | present v => exact Value.Each.traverse kept each state

/-- A traversal whose step keeps what holds of nodes keeps it of a record. -/
theorem Record.Each.traverse : {fs : List Field} → {r : Record fs} → r.Each scalar keys →
    (state : σ) → (r.traverse step state).1.Each scalar keys
  | _, .nil, _, _ => trivial
  | _, .cons _ _, each, state =>
      ⟨FieldValue.Each.traverse kept each.1 state, Record.Each.traverse each.2 _⟩

end Traverse

namespace Node.Each

variable {f : Field} {n : Node k}

/-- What holds throughout a node holds throughout its record. -/
theorem fields (each : n.Each scalar keys) : n.fields.Each scalar keys := by
  cases n
  exact each

/-- What holds throughout a node holds throughout the content of a field. -/
theorem get (each : n.Each scalar keys) (place : Place k.fields f) :
    f.type.Each scalar keys (n.get place) :=
  (FieldValue.each_iff_content _).mp (each.fields.get place)

/-- What holds throughout a node and some content holds throughout the node with the content in a
field. -/
theorem set (each : n.Each scalar keys) (place : Place k.fields f) {c : f.type.Content}
    (held : f.type.Each scalar keys c) : (n.set place c).Each scalar keys := by
  refine each.fields.set place ((FieldValue.each_iff_content _).mpr ?_)
  rw [FieldValue.content_ofContent]
  exact held

/-- What holds throughout a node holds throughout the node at a path. -/
theorem descendant {path : List Nat} {x y : AnyNode} (each : x.2.Each scalar keys)
    (leads : descendant? path x = some y) : y.2.Each scalar keys := by
  induction path generalizing x with
  | nil => exact Option.some.inj leads ▸ each
  | cons index path inductionHypothesis =>
      obtain ⟨child, found, further⟩ := Option.bind_eq_some_iff.mp leads
      exact inductionHypothesis (each.fields.child child (List.mem_of_getElem? found)) further

/-- A change that keeps what holds throughout nodes keeps it when it is made at a path. -/
theorem modifyAt {change : Change}
    (kept : ∀ (k : Kind) (n : Node k), n.Each scalar keys → (change k n).Each scalar keys)
    (each : n.Each scalar keys) (path : List Nat) :
    (Node.modifyAt path change k n).Each scalar keys := by
  induction path generalizing k n with
  | nil => exact kept k n each
  | cons index path inductionHypothesis =>
      have taken (k : Kind) (n : Node k) (count : Nat) (each : n.Each scalar keys) :
          (changeAt index (Node.modifyAt path change) k n count).1.Each scalar keys := by
        rw [changeAt]
        split
        · exact inductionHypothesis each
        · exact each
      exact Record.Each.traverse taken each.fields 0

/-- What holds throughout two nodes holds throughout the one with the other put at a path. -/
theorem replaceAt (each : n.Each scalar keys) (path : List Nat) {y : AnyNode}
    (held : y.2.Each scalar keys) : (n.replaceAt path y).Each scalar keys := by
  refine each.modifyAt (fun k n each => ?_) path
  rw [putting]
  split
  · next same =>
      subst same
      exact held
  · exact each

end Node.Each

end EachPart
end Sarif
