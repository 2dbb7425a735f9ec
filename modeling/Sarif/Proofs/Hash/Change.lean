import Sarif.Node.FieldNames
import Sarif.Node.Path
import Sarif.Proofs.Hash.Folding
import Sarif.PropertyBag

/-!
# Single changes and the hash of the whole

Every step that folds a field, a slot or an entry into a running hash is one-to-one in the running
hash and in what is folded in. A change to one node below another, or to one property in the bag of
such a node, therefore shows in the hash of the whole exactly when it shows in the hash of the part
that is changed: nothing that is folded in later hides it, and nothing on the way up reads more of
the part than its hash. `Node.hash_change_eq_iff` says so for both kinds of change.
-/

namespace Sarif

open HashCode

/-! ## Folding is one-to-one -/

namespace HashCode

/-- Elements fold alike into one running hash exactly when they are equal. -/
theorem combine_right_iff {running a b : HashCode} :
    combine running a = combine running b ↔ a = b :=
  ⟨combine_right_injective, congrArg (combine running)⟩

/-- Elements lie alike over one running hash exactly when they are equal. -/
theorem xor_left_iff {running a b : HashCode} : running ^^^ a = running ^^^ b ↔ a = b :=
  ⟨xor_left_injective, congrArg (running ^^^ ·)⟩

end HashCode

/-- Running hashes are equal exactly when they are after the same slots are folded in. -/
theorem Slots.fold_iff {k : Kind} (s : Slots k) {a b : HashCode} : s.fold a = s.fold b ↔ a = b :=
  ⟨Slots.fold_injective s, congrArg s.fold⟩

/-- Running hashes are equal exactly when they are after the same entries are laid over them. -/
theorem Entries.fold_iff {k : Kind} (e : Entries k) {a b : HashCode} :
    e.fold a = e.fold b ↔ a = b :=
  ⟨Entries.fold_injective e, congrArg e.fold⟩

/-- Running hashes are equal exactly when they are after the same record is folded in. -/
theorem Record.fold_iff {fs : List Field} (r : Record fs) {a b : HashCode} :
    r.fold a = r.fold b ↔ a = b :=
  ⟨Record.fold_injective r, congrArg r.fold⟩

/-! ## One child changed -/

section Child

open Node (changeAt)

variable (index : Nat) (change : Node.Change)

/-- A traversal of a list counts its nodes. -/
theorem Slots.traverse_count {k : Kind} : (s : Slots k) → (count : Nat) →
    (s.traverse (changeAt index change) count).2 = count + s.children.length
  | .nil, _ => rfl
  | .empty rest, count => Slots.traverse_count rest count
  | .full n rest, count => by
      have tail := Slots.traverse_count rest (count + 1)
      simp only [Slots.traverse, changeAt, Slots.children, List.length_cons, tail]
      omega

/-- A traversal of a map counts its nodes. -/
theorem Entries.traverse_count {k : Kind} : (e : Entries k) → (count : Nat) →
    (e.traverse (changeAt index change) count).2 = count + e.children.length
  | .nil, _ => rfl
  | .cons key n rest, count => by
      have tail := Entries.traverse_count rest (count + 1)
      simp only [Entries.traverse, changeAt, Entries.children, List.length_cons, tail]
      omega

/-- A traversal of a value counts its nodes. -/
theorem Value.traverse_count {t : Ty} (v : Value t) (count : Nat) :
    (v.traverse (changeAt index change) count).2 = count + v.children.length := by
  cases v with
  | flat x => rfl
  | node n => rfl
  | nodes s => exact Slots.traverse_count index change s count
  | nodeMap e => exact Entries.traverse_count index change e count

/-- A traversal of a field counts its nodes. -/
theorem FieldValue.traverse_count {t : FieldType} (v : FieldValue t) (count : Nat) :
    (v.traverse (changeAt index change) count).2 = count + v.children.length := by
  cases v with
  | required v => exact Value.traverse_count index change v count
  | absent => rfl
  | present v => exact Value.traverse_count index change v count

variable {index}

/-- A list keeps its nodes when the changed index is not one of theirs. -/
theorem Slots.traverse_outside {k : Kind} : (s : Slots k) → (count : Nat) →
    (index < count ∨ count + s.children.length ≤ index) →
    (s.traverse (changeAt index change) count).1 = s
  | .nil, _, _ => rfl
  | .empty rest, count, outside => by
      have tail := Slots.traverse_outside rest count outside
      simp only [Slots.traverse, tail]
  | .full n rest, count, outside => by
      rw [Slots.children, List.length_cons] at outside
      have tail := Slots.traverse_outside rest (count + 1) (by omega)
      have other : count ≠ index := by omega
      simp only [Slots.traverse, changeAt, if_neg other, tail]

/-- A map keeps its nodes when the changed index is not one of theirs. -/
theorem Entries.traverse_outside {k : Kind} : (e : Entries k) → (count : Nat) →
    (index < count ∨ count + e.children.length ≤ index) →
    (e.traverse (changeAt index change) count).1 = e
  | .nil, _, _ => rfl
  | .cons key n rest, count, outside => by
      rw [Entries.children, List.length_cons] at outside
      have tail := Entries.traverse_outside rest (count + 1) (by omega)
      have other : count ≠ index := by omega
      simp only [Entries.traverse, changeAt, if_neg other, tail]

/-- A value keeps its nodes when the changed index is not one of theirs. -/
theorem Value.traverse_outside {t : Ty} (v : Value t) {count : Nat}
    (outside : index < count ∨ count + v.children.length ≤ index) :
    (v.traverse (changeAt index change) count).1 = v := by
  cases v with
  | flat x => rfl
  | node n =>
      have other : count ≠ index := by
        rw [Value.children, List.length_singleton] at outside
        omega
      simp only [Value.traverse, changeAt, if_neg other]
  | nodes s => exact congrArg Value.nodes (Slots.traverse_outside change s count outside)
  | nodeMap e => exact congrArg Value.nodeMap (Entries.traverse_outside change e count outside)

/-- A field keeps its nodes when the changed index is not one of theirs. -/
theorem FieldValue.traverse_outside {t : FieldType} (v : FieldValue t) {count : Nat}
    (outside : index < count ∨ count + v.children.length ≤ index) :
    (v.traverse (changeAt index change) count).1 = v := by
  cases v with
  | required v => exact congrArg FieldValue.required (Value.traverse_outside change v outside)
  | absent => rfl
  | present v => exact congrArg FieldValue.present (Value.traverse_outside change v outside)

/-- A record keeps its nodes when the changed index is not one of theirs. -/
theorem Record.traverse_outside : {fs : List Field} → (r : Record fs) → (count : Nat) →
    (index < count ∨ count + r.children.length ≤ index) →
    (r.traverse (changeAt index change) count).1 = r
  | _, .nil, _, _ => rfl
  | _, .cons v rest, count, outside => by
      rw [Record.children, List.length_append] at outside
      have apart : index < count ∨ count + v.children.length ≤ index := by omega
      have head := v.traverse_outside change apart
      have tail := Record.traverse_outside rest (count + v.children.length) (by omega)
      simp only [Record.traverse, head, FieldValue.traverse_count, tail]

variable {child : AnyNode}

/-- A list with one node changed folds as before exactly when the node has the hash it had. -/
theorem Slots.fold_changeAt_iff {k : Kind} : (s : Slots k) → (count i : Nat) →
    s.children[i]? = some child → (running : HashCode) →
    ((s.traverse (changeAt (count + i) change) count).1.fold running = s.fold running ↔
      (change child.1 child.2).hash = child.2.hash)
  | .nil, _, _, found, _ => by cases found
  | .empty rest, count, i, found, running =>
      Slots.fold_changeAt_iff rest count i found (running * 31)
  | .full n rest, count, 0, found, running => by
      obtain rfl : ⟨k, n⟩ = child := Option.some.inj found
      have later := rest.traverse_outside change (count + 1) (.inl (Nat.lt_add_one count))
      simp only [Slots.traverse, changeAt, Nat.add_zero, if_true, later, Slots.fold]
      exact (Slots.fold_iff rest).trans combine_right_iff
  | .full n rest, count, i + 1, found, running => by
      have tail := Slots.fold_changeAt_iff rest (count + 1) i found
        (combine (running * 31) n.hash)
      have other : count ≠ count + (i + 1) := by omega
      have same : count + 1 + i = count + (i + 1) := by omega
      rw [same] at tail
      simpa only [Slots.traverse, changeAt, if_neg other, Slots.fold] using tail

/-- A map with one node changed folds as before exactly when the node has the hash it had. -/
theorem Entries.fold_changeAt_iff {k : Kind} : (e : Entries k) → (count i : Nat) →
    e.children[i]? = some child → (running : HashCode) →
    ((e.traverse (changeAt (count + i) change) count).1.fold running = e.fold running ↔
      (change child.1 child.2).hash = child.2.hash)
  | .nil, _, _, found, _ => by cases found
  | .cons key n rest, count, 0, found, running => by
      obtain rfl : ⟨k, n⟩ = child := Option.some.inj found
      have later := rest.traverse_outside change (count + 1) (.inl (Nat.lt_add_one count))
      simp only [Entries.traverse, changeAt, Nat.add_zero, if_true, later, Entries.fold]
      exact (Entries.fold_iff rest).trans xor_left_iff
  | .cons key n rest, count, i + 1, found, running => by
      have tail := Entries.fold_changeAt_iff rest (count + 1) i found
        (running ^^^ ofString key ^^^ n.hash)
      have other : count ≠ count + (i + 1) := by omega
      have same : count + 1 + i = count + (i + 1) := by omega
      rw [same] at tail
      simpa only [Entries.traverse, changeAt, if_neg other, Entries.fold] using tail

/-- A value with one node changed folds as before exactly when the node has the hash it had. -/
theorem Value.fold_changeAt_iff {t : Ty} (v : Value t) (count i : Nat)
    (found : v.children[i]? = some child) (running : HashCode) :
    (v.traverse (changeAt (count + i) change) count).1.fold running = v.fold running ↔
      (change child.1 child.2).hash = child.2.hash := by
  cases v with
  | flat x => cases found
  | node n =>
      obtain ⟨rfl, rfl⟩ : i = 0 ∧ (⟨_, n⟩ : AnyNode) = child := by
        cases i with
        | zero => exact ⟨rfl, Option.some.inj found⟩
        | succ i => cases found
      simp only [Value.traverse, changeAt, Nat.add_zero, if_true, Value.fold]
      exact combine_right_iff
  | nodes s => exact Slots.fold_changeAt_iff change s count i found running
  | nodeMap e =>
      have inside := Entries.fold_changeAt_iff change e count i found 0
      exact combine_right_iff.trans inside

/-- A field with one node changed folds as before exactly when the node has the hash it had. -/
theorem FieldValue.fold_changeAt_iff {t : FieldType} (v : FieldValue t) (count i : Nat)
    (found : v.children[i]? = some child) (running : HashCode) :
    (v.traverse (changeAt (count + i) change) count).1.fold running = v.fold running ↔
      (change child.1 child.2).hash = child.2.hash := by
  cases v with
  | required v => exact Value.fold_changeAt_iff change v count i found running
  | absent => cases found
  | present v => exact Value.fold_changeAt_iff change v count i found running

/-- A record with one node changed folds as before exactly when the node has the hash it had. -/
theorem Record.fold_changeAt_iff : {fs : List Field} → (r : Record fs) → (count i : Nat) →
    r.children[i]? = some child → (running : HashCode) →
    ((r.traverse (changeAt (count + i) change) count).1.fold running = r.fold running ↔
      (change child.1 child.2).hash = child.2.hash)
  | _, .nil, _, _, found, _ => by cases found
  | _, .cons v rest, count, i, found, running => by
      rw [Record.children] at found
      by_cases here : i < v.children.length
      · -- The child stands in the first field, and the later fields keep theirs.
        rw [List.getElem?_append_left here] at found
        have head := v.fold_changeAt_iff change count i found running
        have before : count + i < count + v.children.length := by omega
        have later := rest.traverse_outside change (count + v.children.length) (.inl before)
        simp only [Record.traverse, FieldValue.traverse_count, later, Record.fold]
        exact (Record.fold_iff rest).trans head
      · rw [List.getElem?_append_right (by omega)] at found
        have after : count + v.children.length ≤ count + i := by omega
        have head := v.traverse_outside change (.inr after)
        have tail := Record.fold_changeAt_iff rest (count + v.children.length)
          (i - v.children.length) found (v.fold running)
        have same : count + v.children.length + (i - v.children.length) = count + i := by omega
        rw [same] at tail
        simpa only [Record.traverse, FieldValue.traverse_count, head, Record.fold] using tail

end Child

/-! ## One field changed -/

/-- A record with one field changed folds as before exactly when the field does. -/
theorem Record.fold_set_iff {P : Prop} : {fs : List Field} → {f : Field} → (r : Record fs) →
    (p : Place fs f) → (v : FieldValue f.type) →
    (∀ running, v.fold running = (r.get p).fold running ↔ P) →
    ∀ running, (r.set p v).fold running = r.fold running ↔ P
  | _, _, .cons _ rest, .here, _, exactly, running =>
      (Record.fold_iff rest).trans (exactly running)
  | _, _, .cons w rest, .later p, v, exactly, running =>
      Record.fold_set_iff rest p v exactly (w.fold running)

/-- A map with one value changed is laid over a running hash as before exactly when the value has
the hash it had. -/
theorem Flat.foldEntries_put_iff {α : Type} {hash : α → HashCode} {key : String} {value other : α}
    {entries : List (String × α)} (found : Dict.lookup key entries = some value)
    (running : HashCode) :
    Flat.foldEntries hash running (Dict.put key other entries) =
        Flat.foldEntries hash running entries ↔ hash other = hash value := by
  induction entries generalizing running with
  | nil => cases found
  | cons entry rest inductionHypothesis =>
      obtain ⟨name, held⟩ := entry
      by_cases here : name = key
      · obtain rfl : held = value := by simpa [Dict.lookup, here] using found
        simp only [Dict.put, if_pos here, Flat.foldEntries]
        constructor
        · intro equal
          exact xor_left_injective (Flat.foldEntries_injective hash rest equal)
        · intro equal
          rw [equal]
      · have later : Dict.lookup key rest = some value := by simpa [Dict.lookup, here] using found
        simp only [Dict.put, if_neg here, Flat.foldEntries]
        exact inductionHypothesis later _

namespace Node

variable {k : Kind}

/-- The change that stores a value under a name in the bag of a node. -/
def storing (name : String) (value : Json) : Change :=
  fun _ n => (n.setProperty name (.json value)).1

/-- A node with the value of one property changed has the hash it had exactly when the value
does. -/
theorem hash_storing_iff (n : Node k) {bag : PropertyBag} (held : n.bag? = some bag)
    {name : String} {value other : Json} (found : bag.get? name = some value) :
    (storing name other k n).hash = n.hash ↔ other.hash = value.hash := by
  obtain ⟨fields⟩ := n
  have content : (fields.get k.properties).content = some bag := held
  have stands : fields.get k.properties = .present (.flat (f := .map .json) bag) := by
    rw [← FieldValue.ofContent_content (fields.get k.properties), content]
    rfl
  have changed : storing name other k (mk fields) =
      (mk fields).setBag (some (bag.insert name other)) := by
    simp [storing, setProperty, PropertyBag.set, Offered.toJson, Node.bag, held]
  rw [changed]
  refine Record.fold_set_iff fields k.properties _ (fun running => ?_) seed
  rw [stands]
  exact combine_right_iff.trans (Flat.foldEntries_put_iff found 0)

/-! ## Changes at any depth -/

/-- A node with one child changed has the hash it had exactly when the child does. -/
theorem hash_modifyChild_iff (n : Node k) (change : Change) {index : Nat} {child : AnyNode}
    (found : n.child? index = some child) :
    (n.modifyChild index change).hash = n.hash ↔
      (change child.1 child.2).hash = child.2.hash := by
  obtain ⟨fields⟩ := n
  have inside := Record.fold_changeAt_iff change fields 0 index found seed
  rwa [Nat.zero_add] at inside

/-- A node with one node below it changed has the hash it had exactly when that node does. -/
theorem hash_modifyAt_iff (change : Change) {path : List Nat} {d : AnyNode} (n : Node k)
    (found : descendant? path ⟨k, n⟩ = some d) :
    (modifyAt path change k n).hash = n.hash ↔ (change d.1 d.2).hash = d.2.hash := by
  induction path generalizing k with
  | nil =>
      obtain rfl : ⟨k, n⟩ = d := Option.some.inj found
      exact Iff.rfl
  | cons index path inductionHypothesis =>
      obtain ⟨child, here, below⟩ := Option.bind_eq_some_iff.mp found
      exact (hash_modifyChild_iff n _ here).trans (inductionHypothesis child.2 below)

/-- The hash of a node is unchanged by putting another node in the place of one at or below it
exactly when the two have one hash, and by storing another value under a name in the bag of one at
or below it exactly when the value that was there has the same hash. -/
theorem hash_change_eq_iff (x : Node k) (path : List Nat) (d : AnyNode)
    (found : descendant? path ⟨k, x⟩ = some d) :
    (∀ y : Node d.1, (x.replaceAt path ⟨d.1, y⟩).hash = x.hash ↔ y.hash = d.2.hash) ∧
      ∀ (bag : PropertyBag) (name : String) (value other : Json),
        d.2.bag? = some bag → bag.get? name = some value →
        ((modifyAt path (storing name other) k x).hash = x.hash ↔ other.hash = value.hash) := by
  constructor
  · intro y
    have put : putting ⟨d.1, y⟩ d.1 d.2 = y := dif_pos rfl
    rw [replaceAt, hash_modifyAt_iff _ x found, put]
  · intro bag name value other held stored
    rw [hash_modifyAt_iff _ x found, hash_storing_iff d.2 held stored]

/-- A message string with one property, which is true or false. -/
def flaggedString (flag : Bool) : Node .multiformatMessageString :=
  (default .multiformatMessageString).setBag (some ⟨[("flag", .boolean flag)]⟩)

/-- A thread flow whose initial state holds two message strings. -/
def flaggedFlow : Node .threadFlow :=
  (default .threadFlow).set (.ofIndex 2 rfl : FieldOf .threadFlow "initialState" _)
    (some ⟨[("a", default _), ("b", flaggedString true)]⟩)

/-- The hash of a thread flow shows that the second string of its initial state is replaced by one
of another hash, and that the property of this string is set to a value of another hash. -/
theorem hash_change_eq_iff_flaggedFlow :
    descendant? [1] ⟨.threadFlow, flaggedFlow⟩ =
        some ⟨.multiformatMessageString, flaggedString true⟩ ∧
      (flaggedFlow.replaceAt [1] ⟨.multiformatMessageString, default _⟩).hash ≠ flaggedFlow.hash ∧
      (modifyAt [1] (storing "flag" (.boolean false)) .threadFlow flaggedFlow).hash ≠
        flaggedFlow.hash := by
  have found : descendant? [1] ⟨.threadFlow, flaggedFlow⟩ =
      some ⟨.multiformatMessageString, flaggedString true⟩ := rfl
  obtain ⟨replaced, stored⟩ := hash_change_eq_iff flaggedFlow [1] _ found
  refine ⟨found, fun equal => ?_, fun equal => ?_⟩
  · have inside := (replaced (default _)).mp equal
    exact absurd inside (by decide +kernel)
  · have inside := (stored ⟨[("flag", .boolean true)]⟩ "flag" (.boolean true) (.boolean false)
      rfl rfl).mp equal
    exact absurd inside (by decide)

end Node
end Sarif
