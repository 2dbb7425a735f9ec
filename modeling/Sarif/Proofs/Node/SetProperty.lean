import Mathlib.Algebra.Group.Int.Defs
import Sarif.PropertyBag
import Sarif.Proofs.Hash.Folding

/-!
# Properties that cannot be stored

Setting a property of a node makes its bag first. When the value turns out not to be storable
the error names the property, and a bag that was there before is as it was, but a bag that was
not there has been made and stays. The bag is the last field of every kind, so what the empty bag
adds to the hash and to the text of a node can be read off.
-/

namespace Sarif

/-! ## The last field of a record -/

namespace Place

/-- No field follows the one at a place. -/
def IsLast : {fs : List Field} → {f : Field} → Place fs f → Prop
  | _ :: fs, _, here => fs = []
  | _, _, later p => p.IsLast

/-- The place at the last index is the last place. -/
theorem ofIndex_isLast : {fs : List Field} → {f : Field} → (i : Nat) →
    (found : fs[i]? = some f) → i + 1 = fs.length → (ofIndex i found).IsLast
  | [], _, i, found, _ => by simp at found
  | _ :: fs, _, 0, found, last => by
      obtain rfl := Option.some.inj found
      have none_left : fs.length = 0 := by simpa using last.symm
      exact List.eq_nil_of_length_eq_zero none_left
  | _ :: fs, f, i + 1, found, last => by
      have later : fs[i]? = some f := by simpa using found
      exact ofIndex_isLast i later (by simpa using last)

end Place

/-- The property bag is the last field of every kind. -/
theorem Kind.properties_isLast (k : Kind) : k.properties.IsLast := by
  unfold Kind.properties
  refine Place.ofIndex_isLast _ _ ?_
  have inside : 0 < k.fields.length := by cases k <;> exact Nat.succ_pos _
  omega

namespace Record

/-- A record whose last field is changed from one that adds nothing to its hash folds the new
field last. -/
theorem fold_set_of_isLast : {fs : List Field} → {f : Field} → (r : Record fs) →
    (p : Place fs f) → p.IsLast → (v : FieldValue f.type) →
    (∀ running, (r.get p).fold running = running) →
    ∀ running, (r.set p v).fold running = v.fold (r.fold running)
  | _, _, .cons w rest, .here, last, v, neutral, running => by
      obtain rfl := last
      cases rest with
      | nil =>
          have unchanged : w.fold running = running := neutral running
          simp [set, Record.fold, unchanged]
  | _, _, .cons w rest, .later p, last, v, neutral, running => by
      have tail := fold_set_of_isLast rest p last v neutral (w.fold running)
      simpa [set, Record.fold] using tail

/-- A record whose last field is changed from one that is not written writes the new field
last. -/
theorem members_set_of_isLast : {fs : List Field} → {f : Field} → (r : Record fs) →
    (p : Place fs f) → p.IsLast → (v : FieldValue f.type) → (d : Document) →
    v.document? = some d → (r.get p).document? = none →
    (r.set p v).members = r.members ++ [(Literal.ofString f.name, d)]
  | _, _, .cons w rest, .here, last, v, d, written, unwritten => by
      obtain rfl := last
      cases rest with
      | nil =>
          have absent : w.document? = none := unwritten
          simp [set, members, written, absent]
  | _, _, .cons w rest, .later p, last, v, d, written, unwritten => by
      have tail := members_set_of_isLast rest p last v d written unwritten
      cases shown : w.document? <;> simp [set, members, shown, tail]

/-- A record with one field changed for another is another record. -/
theorem same_set_eq_false : {fs : List Field} → {f : Field} → (r : Record fs) →
    (p : Place fs f) → (v : FieldValue f.type) → v.same (r.get p) = false →
    (r.set p v).same r = false
  | _, _, .cons w rest, .here, v, other => by
      have apart : v.same w = false := other
      simp [set, Record.same, apart]
  | _, _, .cons w rest, .later p, v, other => by
      simp [set, Record.same, same_set_eq_false rest p v other]

end Record

/-! ## Texts with one member more -/

namespace Document

/-- The members after the first are spelled one after the other. -/
theorem moreMembersText_append (before after : List (Literal × Document)) :
    moreMembersText (before ++ after) = moreMembersText before ++ moreMembersText after := by
  induction before with
  | nil => rfl
  | cons member rest inductionHypothesis =>
      simp [moreMembersText, inductionHypothesis]

/-- One more member makes the text of an object longer. -/
theorem length_membersText_lt (members : List (Literal × Document)) (name : Literal)
    (value : Document) :
    (membersText members).length < (membersText (members ++ [(name, value)])).length := by
  cases members with
  | nil =>
      simp only [List.nil_append, membersText, moreMembersText, List.length_append,
        List.length_cons, List.length_nil]
      omega
  | cons member rest => simp [membersText, moreMembersText_append, moreMembersText]

end Document

/-! ## Failed writes -/

namespace Node

variable {k : Kind}

/-- A node has no bag when its field for the bag is absent. -/
theorem get_properties_of_bag? {fields : Record k.fields} (absent : (mk fields).bag? = none) :
    fields.get k.properties = .absent := by
  have content : (fields.get k.properties).content = none := absent
  rw [← FieldValue.ofContent_content (fields.get k.properties), content]
  rfl

/-- A bag that is put into a node without one adds its hash to that of the node. -/
theorem hash_setBag (n : Node k) (absent : n.bag? = none) (bag : PropertyBag) :
    (n.setBag (some bag)).hash = HashCode.combine n.hash bag.hash := by
  obtain ⟨fields⟩ := n
  refine Record.fold_set_of_isLast fields k.properties k.properties_isLast _ ?_ HashCode.seed
  rw [get_properties_of_bag? absent]
  exact fun _ => rfl

/-- A node without a bag is another node once it has one. -/
theorem same_setBag (n : Node k) (absent : n.bag? = none) (bag : PropertyBag) :
    (n.setBag (some bag)).same n = false := by
  obtain ⟨fields⟩ := n
  refine Record.same_set_eq_false fields k.properties _ ?_
  rw [get_properties_of_bag? absent]
  rfl

/-- A node without a bag is written with one member less than with a bag. -/
theorem text_setBag_ne (n : Node k) (absent : n.bag? = none) (bag : PropertyBag) :
    (n.setBag (some bag)).text ≠ n.text := by
  obtain ⟨fields⟩ := n
  have members : (fields.set k.properties (FieldValue.ofContent _ (some bag))).members =
      fields.members ++ [(Literal.ofString "properties", bag.document)] := by
    refine Record.members_set_of_isLast fields k.properties k.properties_isLast _ _ rfl ?_
    rw [get_properties_of_bag? absent]
    rfl
  have longer := Document.length_membersText_lt fields.members (Literal.ofString "properties")
    bag.document
  intro equal
  have lengths := congrArg (fun text : String => text.toList.length) equal
  simp only [text, document, Document.render, Document.text, setBag, set, Node.fields,
    String.toList_ofList, List.length_append, List.length_cons, members] at lengths
  omega

/-- Setting a property to a value that cannot be stored is an error for that property. The node
stays what it was exactly when it had a bag. One without a bag is left with an empty bag: taking
that away gives the node back, but until then it is another node, with another text, and 31 times
the hash. -/
theorem setProperty_failed (n : Node k) (name : String) (value : Offered) {problem : StoreProblem}
    (fails : value.toJson = .error problem) :
    (n.setProperty name value).2 = .error (.property name (.store problem)) ∧
      ((n.setProperty name value).1 = n ↔ n.bag? ≠ none) ∧
      (n.bag? = none →
        (n.setProperty name value).1.setBag none = n ∧
          (n.setProperty name value).1.same n = false ∧
          (n.setProperty name value).1.text ≠ n.text ∧
          (n.setProperty name value).1.hash = n.hash * 31) := by
  have outcome : n.setProperty name value =
      (n.setBag (some n.bag), .error (.property name (.store problem))) := by
    simp [setProperty, PropertyBag.set, fails]
  have restored : n.setBag n.bag? = n := set_get n k.properties
  rw [outcome]
  refine ⟨rfl, ⟨fun unchanged absent => ?_, fun present => ?_⟩, fun absent => ⟨?_, ?_, ?_, ?_⟩⟩
  · exact text_setBag_ne n absent n.bag (congrArg text unchanged)
  · obtain ⟨bag, held⟩ := Option.ne_none_iff_exists'.mp present
    have same_bag : n.bag = bag := by simp [Node.bag, held]
    rw [same_bag, ← held]
    exact restored
  · calc (n.setBag (some n.bag)).setBag none = n.setBag none := set_set n k.properties _ _
      _ = n := by simpa [absent] using restored
  · exact same_setBag n absent n.bag
  · exact text_setBag_ne n absent n.bag
  · have empty : n.bag.hash = 0 := by
      simp [bag, absent, PropertyBag.hash, Dict.empty, Flat.hash, Flat.foldEntries]
    simp [hash_setBag n absent, empty, HashCode.combine]

/-- A new region that is offered an integer too large to store is left with an empty bag. -/
theorem setProperty_failed_region :
    (Offered.integer (10 ^ 20)).toJson = .error .numberOutOfRange ∧
      ((Node.default .region).setProperty "x" (.integer (10 ^ 20))).1 ≠ Node.default .region := by
  have fails : (Offered.integer (10 ^ 20)).toJson = .error .numberOutOfRange := rfl
  refine ⟨fails, fun unchanged => ?_⟩
  have present := (setProperty_failed (Node.default .region) "x" _ fails).2.1.mp unchanged
  exact present rfl

end Node
end Sarif
