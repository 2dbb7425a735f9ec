import Sarif.Proofs.Hash.Consistency
import Sarif.Proofs.Json.Alike
import Sarif.Proofs.Node.RoundTrip
import Sarif.Proofs.Reading.Fits
import Sarif.Proofs.Time.Injective

/-!
# Equal nodes are the nodes of one document

Well-formed nodes with finite numbers are equal exactly when their texts are the same document, with
the order of members and the sign of a zero left aside. No two values that are not equal are written
alike: what is left out of a node is its default, an empty slot is written as null while no list
holds a value that is, and a string is only read as one date-time, in any year. Since being the same
document is symmetric and transitive, so is equality of nodes.
-/

namespace Sarif

/-- Runs that are related item by item in two ways that agree on their items. -/
theorem forall₂_iff_of_mem {α β : Type} {r s : α → β → Prop} {xs : List α} {ys : List β}
    (each : ∀ x ∈ xs, ∀ y ∈ ys, (r x y ↔ s x y)) :
    List.Forall₂ r xs ys ↔ List.Forall₂ s xs ys := by
  induction xs generalizing ys with
  | nil => cases ys <;> simp
  | cons x xs inductionHypothesis =>
      cases ys with
      | nil => simp
      | cons y ys =>
          have head := each x (List.mem_cons_self ..) y (List.mem_cons_self ..)
          have tail := inductionHypothesis fun x inside y inside' =>
            each x (List.mem_cons_of_mem _ inside) y (List.mem_cons_of_mem _ inside')
          rw [List.forall₂_cons, List.forall₂_cons, head, tail]

/-! ## Scalars -/

/-- The integers of a width are written as the same document only if they are equal. -/
theorem Width.integerDocument_same_iff (w : Width) (x y : w.Word) :
    (Scalar.integerDocument (w.toInt x)).Same (Scalar.integerDocument (w.toInt y)) ↔ x = y := by
  have numbers : (Scalar.integerDocument (w.toInt x)).Same (Scalar.integerDocument (w.toInt y)) ↔
      (Number.integer (w.toInt x)).same (Number.integer (w.toInt y)) = true :=
    Numeral.same_numeral_iff (w.wellFormed_toInt x) (w.wellFormed_toInt y)
  rw [numbers, Number.same, beq_iff_eq]
  constructor
  · intro integers
    rw [← ofInt_toInt w x, ← ofInt_toInt w y, integers]
  · exact congrArg _

/-- Strings are written as the same document only if they are equal. -/
theorem Document.string_same_iff {s t : String} :
    (Document.string s).Same (Document.string t) ↔ s = t :=
  Literal.alike_ofString_iff

/-- Regular scalars are equal exactly when they are written as the same document. -/
theorem Scalar.same_iff_document (s : Scalar) {x y : s.Value} (first : s.Regular x)
    (second : s.Regular y) : s.same x y = true ↔ (s.document x).Same (s.document y) := by
  cases s with
  | text => exact decide_eq_true_iff.trans Document.string_same_iff.symm
  | boolean => exact decide_eq_true_iff
  | integer w => exact decide_eq_true_iff.trans (w.integerDocument_same_iff x y).symm
  | number =>
      have finite : Binary64.isFinite x = true := first.2
      have finite' : Binary64.isFinite y = true := second.2
      have numerals : (Document.numeral (Number.float x).numeral).Same
          (.numeral (Number.float y).numeral) ↔ (Number.float x).same (.float y) = true :=
        Numeral.same_numeral_iff finite finite'
      simp only [document, finite, finite', if_true]
      exact numerals.symm
  | sentinel =>
      obtain ⟨raw⟩ := x
      obtain ⟨raw'⟩ := y
      have words := Width.integerDocument_same_iff .signed64 raw raw'
      exact decide_eq_true_iff.trans ((Sentinel.mk.injEq raw raw').to_iff.trans words.symm)
  | dateTime =>
      refine decide_eq_true_iff.trans (Iff.trans ?_ Document.string_same_iff.symm)
      constructor
      · exact congrArg fun t => String.ofList (DateTime.text t)
      · exact fun texts => DateTime.eq_of_text_eq first.1 second.1 (String.ofList_injective texts)
  | choice c =>
      refine decide_eq_true_iff.trans (Iff.trans ?_ Document.string_same_iff.symm)
      constructor
      · exact congrArg c.name
      · intro names
        have found := c.ofName?_name x
        rw [names, c.ofName?_name y] at found
        exact (Option.some.inj found).symm
  | json => exact Json.same_iff x y first.1 second.1
  | unit => exact ⟨fun _ => trivial, fun _ => rfl⟩

/-! ## Flat values -/

/-- A document that is neither null nor broken is not the same as null. -/
theorem Document.not_same_null {d : Document} (shown : d.Shown) : ¬ d.Same .null := by
  cases d with
  | null => exact fun _ => shown
  | array items defect => cases defect <;> exact id
  | object members ending => cases ending <;> exact id
  | _ => exact id

namespace Flat

open Document (not_same_null)

/-- An empty slot is not written as a value is, and full slots are as their values. -/
theorem slotDocument_same_iff {s : Scalar} (shows : s.showsNull = false) {x y : Option s.Value}
    (first : ∀ a ∈ x, s.Regular a) (second : ∀ b ∈ y, s.Regular b) :
    Option.Rel (fun a b => s.same a b = true) x y ↔
      (slotDocument s x).Same (slotDocument s y) := by
  cases x with
  | none =>
      cases y with
      | none => exact ⟨fun _ => trivial, fun _ => .none⟩
      | some b =>
          have shown := Scalar.document_shown shows (second b rfl).2
          exact ⟨fun related => (nomatch related), fun same => (not_same_null shown same.symm).elim⟩
  | some a =>
      have shown := Scalar.document_shown shows (first a rfl).2
      cases y with
      | none =>
          exact ⟨fun related => (nomatch related), fun same => (not_same_null shown same).elim⟩
      | some b =>
          rw [Option.rel_some_some]
          exact s.same_iff_document (first a rfl) (second b rfl)

/-- Flat values of regular scalars are equal exactly when they are written as the same document. -/
theorem related_iff_document (f : Flat) (legible : f.legible = true) {x y : f.Value}
    (first : Flat.Each Scalar.Regular List.Nodup f x)
    (second : Flat.Each Scalar.Regular List.Nodup f y) :
    Flat.Related (fun s a b => s.same a b = true) f x y ↔
      (f.document x).Same (f.document y) := by
  cases f with
  | scalar s => exact s.same_iff_document first second
  | array s =>
      refine Iff.trans ?_ Document.alikeItems_iff.symm
      rw [List.forall₂_map_left_iff, List.forall₂_map_right_iff]
      exact forall₂_iff_of_mem fun a inside b inside' =>
        s.same_iff_document (first a inside) (second b inside')
  | slots s =>
      have shows : s.showsNull = false := by simpa [Flat.legible] using legible
      refine Iff.trans ?_ Document.alikeItems_iff.symm
      rw [List.forall₂_map_left_iff, List.forall₂_map_right_iff]
      exact forall₂_iff_of_mem fun a inside b inside' =>
        slotDocument_same_iff shows (first a inside) (second b inside')
  | map s =>
      have aligned : Dict.Related (fun a b => s.same a b = true) x y ↔ _ :=
        Dict.related_iff_aligned first.1 second.1
      refine aligned.trans (Iff.trans ?_ Document.alike_object_iff.symm)
      refine exists_congr fun reordered => and_congr_right fun perm => forall₂_iff_of_mem ?_
      intro one inside other inside'
      have regular := second.2 other (perm.mem_iff.mpr inside')
      exact and_congr_right fun _ => s.same_iff_document (first.2 one inside) regular

end Flat

/-! ## Nodes -/

/-- The fields of a kind are written under distinct names. -/
theorem Kind.names_distinct (k : Kind) :
    ((k.fields.map Field.name).map .ok : List (Except Problem String)).Nodup :=
  k.fields_distinct.map fun _ _ => Except.ok.inj

/-- The names of the members of a record are those of some of its fields, in their order. -/
theorem Record.names_members_sublist {fs : List Field} (r : Record fs) :
    (Document.names r.members).Sublist ((fs.map Field.name).map .ok) := by
  cases r with
  | nil => exact .refl _
  | @cons f fs v rest =>
      have tail := names_members_sublist rest
      rw [members]
      split
      · next d written =>
          have head : Document.names ((Literal.ofString f.name, d) :: rest.members) =
              .ok f.name :: Document.names rest.members :=
            congrArg (· :: _) (Literal.read_ofString f.name)
          rw [head]
          exact tail.cons_cons _
      · exact tail.cons _

/-- Members that begin with one field of a kind are not those of a record of the others. -/
theorem Record.names_members_ne {f : Field} {fs : List Field} (fresh : f.name ∉ fs.map Field.name)
    (r : Record fs) (d : Document) (rest : List (Literal × Document)) :
    Document.names ((Literal.ofString f.name, d) :: rest) ≠ Document.names r.members := by
  intro names
  have held : (.ok f.name) ∈ Document.names r.members := by
    rw [← names]
    exact List.mem_cons.mpr (.inl (Literal.read_ofString f.name).symm)
  obtain ⟨name, inside, equal⟩ := List.mem_map.mp (r.names_members_sublist.subset held)
  exact fresh (Except.ok.inj equal ▸ inside)

/-- Unset sentinels are equal. -/
theorem Value.related_of_isUnset {t : Ty} (v w : Value t) (first : v.isUnset = true)
    (second : w.isUnset = true) : v.Related (fun s a b => s.same a b = true) w := by
  match v, w, first, second with
  | .flat (f := .scalar .sentinel) ⟨raw⟩, .flat ⟨raw'⟩, first, second =>
      obtain rfl : raw = -1 := beq_iff_eq.mp first
      obtain rfl : raw' = -1 := beq_iff_eq.mp second
      exact decide_eq_true (p := Sentinel.mk (-1) = ⟨-1⟩) rfl

/-- What is equal to an unset sentinel is one. -/
theorem Value.isUnset_eq_of_related {t : Ty} (v w : Value t)
    (related : v.Related (fun s a b => s.same a b = true) w) : v.isUnset = w.isUnset := by
  match t, v, w, related with
  | .flat (.scalar s), .flat x, .flat y, related =>
      cases s with
      | sentinel =>
          obtain rfl : x = y := of_decide_eq_true related
          rfl
      | _ => rfl
  | .flat (.array _), .flat _, .flat _, _ => rfl
  | .flat (.slots _), .flat _, .flat _, _ => rfl
  | .flat (.map _), .flat _, .flat _, _ => rfl
  | .node _, _, _, _ => rfl
  | .nodes _, _, _, _ => rfl
  | .nodeMap _, _, _, _ => rfl

/-- What is written for required fields is the same when the values are. -/
theorem FieldValue.related_iff_written {t : Ty} (v w : Value t)
    (values : v.Related (fun s a b => s.same a b = true) w ↔ v.document.Same w.document) :
    v.Related (fun s a b => s.same a b = true) w ↔
      Option.Rel Document.Same (required v).document? (required w).document? := by
  rw [document?, document?]
  cases first : v.isUnset <;> cases second : w.isUnset
  · simpa using values
  · refine ⟨fun related => ?_, fun written => by simp at written⟩
    rw [v.isUnset_eq_of_related w related, second] at first
    cases first
  · refine ⟨fun related => ?_, fun written => by simp at written⟩
    rw [v.isUnset_eq_of_related w related, second] at first
    cases first
  · exact ⟨fun _ => .none, fun _ => v.related_of_isUnset w first second⟩

/-- The entries of a map of nodes are written one by one. -/
theorem Entries.members_eq_map {k : Kind} : (e : Entries k) →
    e.members = e.toList.map fun entry => (Literal.ofString entry.1, entry.2.document)
  | .nil => rfl
  | .cons key n rest => by rw [members, toList, members_eq_map rest]; rfl

-- The recursion is on the first node; the second is of the same shape as far as the two are written
-- alike.
mutual

/-- Nodes are equal exactly when they are written as the same document. -/
theorem Node.related_iff_document : {k : Kind} → (n m : Node k) →
    n.Each Scalar.Regular List.Nodup → m.Each Scalar.Regular List.Nodup →
    (n.Related (fun s a b => s.same a b = true) m ↔ n.document.Same m.document)
  | k, .mk fields, .mk others, first, second => by
      have written := Record.related_iff_members fields others k.fields_legible k.fields_distinct
        first second
      rw [Node.document, Node.document]
      refine written.trans ⟨fun alike => ⟨_, .refl _, alike⟩, ?_⟩
      rintro ⟨reordered, perm, alike⟩
      refine alike.of_reordered perm (others.names_members_sublist.nodup k.names_distinct) ?_
      exact (k.names_distinct.perm_iff_eq_of_sublist fields.names_members_sublist
        others.names_members_sublist).mp

/-- Values are equal exactly when they are written as the same document. -/
theorem Value.related_iff_document : {t : Ty} → (v w : Value t) → t.legible = true →
    v.Each Scalar.Regular List.Nodup → w.Each Scalar.Regular List.Nodup →
    (v.Related (fun s a b => s.same a b = true) w ↔ v.document.Same w.document)
  | _, .flat x, .flat y, legible, first, second =>
      Flat.related_iff_document _ legible first second
  | _, .node n, .node m, _, first, second => Node.related_iff_document n m first second
  | _, .nodes s, .nodes t, _, first, second => Slots.related_iff_documents s t first second
  | _, .nodeMap e, .nodeMap d, _, first, second => by
      have keys : (e.toList.map Prod.fst).Nodup := Entries.keys_eq_toList e ▸ first.1
      have keys' : (d.toList.map Prod.fst).Nodup := Entries.keys_eq_toList d ▸ second.1
      have each := Entries.related_iff_document e first.2
      refine (Entries.related_iff_toDict e d).trans ?_
      refine (Dict.related_iff_aligned keys keys').trans ?_
      rw [Value.document, Value.document, Entries.members_eq_map, Entries.members_eq_map]
      refine Iff.trans ?_ Document.alike_object_iff.symm
      refine exists_congr fun reordered => and_congr_right fun perm => forall₂_iff_of_mem ?_
      intro one inside other inside'
      have regular := d.each_iff.mp second.2 other (perm.mem_iff.mpr inside')
      exact and_congr_right fun _ => each one inside other.2 regular

/-- Fields are equal exactly when the same is written for both. -/
theorem FieldValue.related_iff_document? : {t : FieldType} → (v w : FieldValue t) →
    t.legible = true → v.Each Scalar.Regular List.Nodup → w.Each Scalar.Regular List.Nodup →
    (v.Related (fun s a b => s.same a b = true) w ↔
      Option.Rel Document.Same v.document? w.document?)
  | _, .required v, .required w, legible, first, second =>
      FieldValue.related_iff_written v w (Value.related_iff_document v w legible first second)
  | _, .absent, .absent, _, _, _ => ⟨fun _ => .none, fun _ => trivial⟩
  | _, .absent, .present _, _, _, _ => ⟨fun related => related.elim, fun written => nomatch written⟩
  | _, .present _, .absent, _, _, _ => ⟨fun related => related.elim, fun written => nomatch written⟩
  | _, .present v, .present w, legible, first, second => by
      have readable := (Bool.and_eq_true_iff.mp legible).1
      exact (Value.related_iff_document v w readable first second).trans
        Option.rel_some_some.symm

/-- Records are equal exactly when their members are written alike. -/
theorem Record.related_iff_members : {fs : List Field} → (r s : Record fs) →
    (fs.all fun f => f.type.legible) = true → (fs.map Field.name).Nodup →
    r.Each Scalar.Regular List.Nodup → s.Each Scalar.Regular List.Nodup →
    (r.Related (fun s a b => s.same a b = true) s ↔
      Document.AlikeMembers Numeral.Same r.members s.members)
  | _, .nil, .nil, _, _, _, _ => ⟨fun _ => rfl, fun _ => trivial⟩
  | f :: fs, .cons v rest, .cons w more, legible, distinct, first, second => by
      rw [List.all_cons, Bool.and_eq_true] at legible
      rw [List.map_cons, List.nodup_cons] at distinct
      have head := FieldValue.related_iff_document? v w legible.1 first.1 second.1
      have tail := Record.related_iff_members rest more legible.2 distinct.2 first.2 second.2
      refine (and_congr head tail).trans ?_
      rw [Record.members, Record.members]
      cases v.document? with
      | none =>
          cases w.document? with
          | none => simp
          | some e =>
              refine ⟨fun related => (nomatch related.1), fun alike => ?_⟩
              exact (rest.names_members_ne distinct.1 e more.members alike.names_eq.symm).elim
      | some d =>
          cases w.document? with
          | none =>
              refine ⟨fun related => (nomatch related.1), fun alike => ?_⟩
              exact (more.names_members_ne distinct.1 d rest.members alike.names_eq).elim
          | some e => simp [Document.AlikeMembers, Literal.alike_ofString_iff, Document.Same]

/-- Lists of nodes are equal exactly when they are written as the same items. -/
theorem Slots.related_iff_documents : {k : Kind} → (s t : Slots k) →
    s.Each Scalar.Regular List.Nodup → t.Each Scalar.Regular List.Nodup →
    (s.Related (fun s a b => s.same a b = true) t ↔
      Document.AlikeItems Numeral.Same s.documents t.documents)
  | _, .nil, t, _, _ => by
      cases t with
      | nil => exact ⟨fun _ => rfl, fun _ => trivial⟩
      | _ => exact ⟨fun related => related.elim, fun alike => nomatch alike⟩
  | _, .empty rest, t, first, second => by
      cases t with
      | nil => exact ⟨fun related => related.elim, fun alike => alike.elim⟩
      | empty more =>
          have tail := Slots.related_iff_documents rest more first second
          exact ⟨fun related => ⟨trivial, tail.mp related⟩, fun alike => tail.mpr alike.2⟩
      | full m more =>
          obtain ⟨fields⟩ := m
          exact ⟨fun related => related.elim, fun alike => alike.1.elim⟩
  | _, .full n rest, t, first, second => by
      cases t with
      | nil => exact ⟨fun related => related.elim, fun alike => alike.elim⟩
      | empty more =>
          obtain ⟨fields⟩ := n
          exact ⟨fun related => related.elim, fun alike => alike.1.elim⟩
      | full m more =>
          have head := Node.related_iff_document n m first.1 second.1
          have tail := Slots.related_iff_documents rest more first.2 second.2
          exact and_congr head tail

/-- The nodes of a map are equal to others exactly when they are written as the same documents. -/
theorem Entries.related_iff_document : {k : Kind} → (e : Entries k) →
    e.Each Scalar.Regular List.Nodup → ∀ entry ∈ e.toList, ∀ m : Node k,
    m.Each Scalar.Regular List.Nodup →
    (entry.2.Related (fun s a b => s.same a b = true) m ↔ entry.2.document.Same m.document)
  | _, .nil, _, _, inside, _, _ => nomatch inside
  | _, .cons key n rest, first, entry, inside, m, second => by
      rcases List.mem_cons.mp inside with rfl | later
      · exact Node.related_iff_document n m first.1 second
      · exact Entries.related_iff_document rest first.2 entry later m second

end

namespace Node

variable {k : Kind}

/-- A well-formed node with finite numbers is made of regular scalars. -/
theorem regular {n : Node k} (wellFormed : n.WellFormed) (finite : n.FloatsFinite) :
    n.Each Scalar.Regular List.Nodup :=
  Each.combine (fun _ _ => And.intro) (fun _ distinct _ => distinct) n wellFormed finite

/-- The texts of two nodes are the same document when their documents are the same. -/
theorem sameText_iff (n m : Node k) :
    Document.SameText n.text m.text ↔ n.document.Same m.document := by
  constructor
  · rintro ⟨d, e, first, second, same⟩
    rw [ofText_text] at first second
    obtain ⟨rfl, _⟩ := Prod.mk.inj first
    obtain ⟨rfl, _⟩ := Prod.mk.inj second
    exact same
  · exact fun same => ⟨_, _, n.ofText_text, m.ofText_text, same⟩

/-- Well-formed nodes of one kind with finite numbers are equal exactly when their texts are the
same document. Equality of such nodes is reflexive, symmetric and transitive. -/
theorem same_iff_sameText (x y : Node k) (wellFormed : x.WellFormed) (finite : x.FloatsFinite)
    (wellFormed' : y.WellFormed) (finite' : y.FloatsFinite) :
    (x.same y = true ↔ Document.SameText x.text y.text) ∧
      x.same x = true ∧ (x.same y = true → y.same x = true) ∧
      ∀ z : Node k, z.WellFormed → z.FloatsFinite →
        x.same y = true → y.same z = true → x.same z = true := by
  have documents (n m : Node k) (first : n.Each Scalar.Regular List.Nodup)
      (second : m.Each Scalar.Regular List.Nodup) :
      n.same m = true ↔ n.document.Same m.document :=
    (same_iff_related n m).trans (related_iff_document n m first second)
  have one := regular wellFormed finite
  have other := regular wellFormed' finite'
  refine ⟨(documents x y one other).trans (sameText_iff x y).symm, ?_, ?_, ?_⟩
  · exact x.same_self (x.comparable_of_finite one)
  · intro same
    exact (documents y x other one).mpr ((documents x y one other).mp same).symm
  · intro z wellFormed'' finite'' first second
    have third := regular wellFormed'' finite''
    have left := (documents x y one other).mp first
    have right := (documents y z other third).mp second
    exact (documents x z one third).mpr (left.trans right)

/-- A message with properties. -/
def messageWithProperties (properties : List (String × Json)) : Node .message :=
  (default .message).setBag (some ⟨properties⟩)

/-- Messages with one property in two orders and with a zero of either sign have texts of the same
document; with an integer for the zero they have not. -/
theorem same_iff_sameText_properties :
    Document.SameText
        (messageWithProperties [("zero", .number (.float .zero)), ("flag", .boolean true)]).text
        (messageWithProperties [("flag", .boolean true),
          ("zero", .number (.float .negativeZero))]).text ∧
      ¬ Document.SameText
        (messageWithProperties [("zero", .number (.float .zero)), ("flag", .boolean true)]).text
        (messageWithProperties [("zero", .number (.integer 0)), ("flag", .boolean true)]).text := by
  have wellFormed (properties : List (String × Json))
      (distinct : (properties.map Prod.fst).Nodup)
      (each : ∀ property ∈ properties, property.2.WellFormed) :
      (messageWithProperties properties).WellFormed :=
    ⟨trivial, trivial, trivial, trivial, ⟨distinct, each⟩, trivial⟩
  have finite (properties : List (String × Json)) :
      (messageWithProperties properties).FloatsFinite :=
    ⟨trivial, trivial, trivial, trivial, ⟨trivial, fun _ _ => trivial⟩, trivial⟩
  have one := wellFormed [("zero", .number (.float .zero)), ("flag", .boolean true)] (by decide)
    (by simp [Json.WellFormed, Number.WellFormed]; rfl)
  have other := wellFormed [("flag", .boolean true), ("zero", .number (.float .negativeZero))]
    (by decide) (by simp [Json.WellFormed, Number.WellFormed]; rfl)
  have third := wellFormed [("zero", .number (.integer 0)), ("flag", .boolean true)] (by decide)
    (by simp [Json.WellFormed, Number.WellFormed]; decide)
  constructor
  · exact (same_iff_sameText _ _ one (finite _) other (finite _)).1.mp rfl
  · intro same
    have equal := (same_iff_sameText _ _ one (finite _) third (finite _)).1.mpr same
    cases equal

end Node
end Sarif
