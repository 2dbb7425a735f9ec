import Sarif.Node.Children
import Sarif.Proofs.Node.Agreement
import Sarif.Proofs.Node.Frame
import Sarif.Proofs.Node.SameDocument

/-!
# Nodes stored as properties

A node that is set as a property comes back. What it is written as has distinct names throughout
and nothing in it that cannot be read, so it is stored as a JSON value; the document of this value
is the written one up to the order of members, and is read as the node up to the order of maps. In
the host nothing else changes: the other properties stay in their places, and so do the other
fields.
-/

namespace Sarif

/-! ## What is written has distinct names -/

namespace Json

mutual

/-- A well-formed stored value is written with distinct names. -/
theorem document_distinct : (x : Json) → x.WellFormed → x.document.Distinct
  | null, _ => trivial
  | boolean _, _ => trivial
  | number _, _ => trivial
  | string _, _ => trivial
  | array items, wellFormed => itemDocuments_distinct items wellFormed
  | object members, wellFormed =>
      ⟨nodup_names wellFormed.1, memberDocuments_distinct members wellFormed.2⟩

/-- Well-formed items are written with distinct names. -/
theorem itemDocuments_distinct : (items : List Json) → WellFormedItems items →
    Document.DistinctItems (itemDocuments items)
  | [], _ => trivial
  | item :: rest, wellFormed =>
      ⟨document_distinct item wellFormed.1, itemDocuments_distinct rest wellFormed.2⟩

/-- Well-formed members are written with distinct names inside. -/
theorem memberDocuments_distinct : (members : List (String × Json)) →
    WellFormedMembers members → Document.DistinctMembers (memberDocuments members)
  | [], _ => trivial
  | (_, value) :: rest, wellFormed =>
      ⟨document_distinct value wellFormed.1, memberDocuments_distinct rest wellFormed.2⟩

end

end Json

/-- A well-formed scalar is written with distinct names. -/
theorem Scalar.document_distinct (s : Scalar) {x : s.Value} (wellFormed : s.WellFormed x) :
    (s.document x).Distinct := by
  cases s with
  | json => exact Json.document_distinct x wellFormed
  | number =>
      rw [document]
      split <;> trivial
  | _ => trivial

/-- A flat value of well-formed scalars is written with distinct names. -/
theorem Flat.document_distinct (f : Flat) {x : f.Value}
    (wellFormed : Flat.Each Scalar.WellFormed List.Nodup f x) : (f.document x).Distinct := by
  cases f with
  | scalar s => exact s.document_distinct wellFormed
  | array s =>
      refine Document.distinctItems_iff.mpr fun item member => ?_
      obtain ⟨y, inside, rfl⟩ := List.mem_map.mp member
      exact s.document_distinct (wellFormed y inside)
  | slots s =>
      refine Document.distinctItems_iff.mpr fun item member => ?_
      obtain ⟨slot, inside, rfl⟩ := List.mem_map.mp member
      cases slot with
      | none => trivial
      | some y => exact s.document_distinct (wellFormed _ inside y rfl)
  | map s =>
      refine ⟨?_, Document.distinctMembers_iff.mpr fun member held => ?_⟩
      · rw [memberDocuments, Document.names_map_ofString]
        exact wellFormed.1.map fun _ _ => Except.ok.inj
      · obtain ⟨entry, inside, rfl⟩ := List.mem_map.mp held
        exact s.document_distinct (wellFormed.2 entry inside)

mutual

/-- A well-formed node is written with distinct names. -/
theorem Node.document_distinct : {k : Kind} → (n : Node k) →
    n.Each Scalar.WellFormed List.Nodup → n.document.Distinct
  | k, .mk fields, wellFormed =>
      ⟨fields.names_members_sublist.nodup k.names_distinct,
        Record.members_distinct fields wellFormed⟩

/-- A well-formed value is written with distinct names. -/
theorem Value.document_distinct : {t : Ty} → (v : Value t) →
    v.Each Scalar.WellFormed List.Nodup → v.document.Distinct
  | _, .flat _, wellFormed => Flat.document_distinct _ wellFormed
  | _, .node n, wellFormed => Node.document_distinct n wellFormed
  | _, .nodes s, wellFormed => Slots.documents_distinct s wellFormed
  | _, .nodeMap e, wellFormed => by
      refine ⟨?_, Entries.members_distinct e wellFormed.2⟩
      rw [Entries.members_eq_map, Document.names_map_ofString, ← Entries.keys_eq_toList]
      exact wellFormed.1.map fun _ _ => Except.ok.inj

/-- What is written for a well-formed field has distinct names. -/
theorem FieldValue.document?_distinct : {t : FieldType} → (v : FieldValue t) →
    v.Each Scalar.WellFormed List.Nodup → ∀ d ∈ v.document?, d.Distinct
  | _, .required v, wellFormed, d, written => by
      have distinct := Value.document_distinct v wellFormed
      rw [FieldValue.document?] at written
      split at written
      · cases written
      · exact Option.some.inj written ▸ distinct
  | _, .absent, _, _, written => by cases written
  | _, .present v, wellFormed, d, written => by
      have distinct := Value.document_distinct v wellFormed
      exact Option.some.inj written ▸ distinct

/-- The fields of a well-formed record are written with distinct names inside. -/
theorem Record.members_distinct : {fs : List Field} → (r : Record fs) →
    r.Each Scalar.WellFormed List.Nodup → Document.DistinctMembers r.members
  | _, .nil, _ => trivial
  | _, .cons v rest, wellFormed => by
      have head := FieldValue.document?_distinct v wellFormed.1
      have tail := Record.members_distinct rest wellFormed.2
      rw [Record.members]
      split
      · next d written => exact ⟨head d written, tail⟩
      · exact tail

/-- The slots of a well-formed list of nodes are written with distinct names. -/
theorem Slots.documents_distinct : {k : Kind} → (s : Slots k) →
    s.Each Scalar.WellFormed List.Nodup → Document.DistinctItems s.documents
  | _, .nil, _ => trivial
  | _, .empty rest, wellFormed => ⟨trivial, Slots.documents_distinct rest wellFormed⟩
  | _, .full n rest, wellFormed =>
      ⟨Node.document_distinct n wellFormed.1, Slots.documents_distinct rest wellFormed.2⟩

/-- The nodes of a well-formed map are written with distinct names. -/
theorem Entries.members_distinct : {k : Kind} → (e : Entries k) →
    e.Each Scalar.WellFormed List.Nodup → Document.DistinctMembers e.members
  | _, .nil, _ => trivial
  | _, .cons _ n rest, wellFormed =>
      ⟨Node.document_distinct n wellFormed.1, Entries.members_distinct rest wellFormed.2⟩

end

/-! ## Storing what is written -/

namespace Flat

variable {α : Type} {read : Document → Except Problem α}

/-- A run of items is read if each of them is. -/
theorem exists_readItems {items : List Document} (each : ∀ item ∈ items, ∃ x, read item = .ok x) :
    ∃ xs, readItems read items = .ok xs := by
  induction items with
  | nil => exact ⟨[], rfl⟩
  | cons item rest inductionHypothesis =>
      rw [List.forall_mem_cons] at each
      obtain ⟨x, head⟩ := each.1
      obtain ⟨xs, tail⟩ := inductionHypothesis each.2
      exact ⟨x :: xs, by rw [readItems, head, tail]; rfl⟩

/-- A run of members is read if each name and each value is. -/
theorem exists_readEntries {members : List (Literal × Document)}
    (each : ∀ member ∈ members, (∃ name, member.1.read = .ok name) ∧ ∃ x, read member.2 = .ok x) :
    ∃ entries, readEntries read members = .ok entries := by
  induction members with
  | nil => exact ⟨[], rfl⟩
  | cons member rest inductionHypothesis =>
      rw [List.forall_mem_cons] at each
      obtain ⟨⟨name, named⟩, x, head⟩ := each.1
      obtain ⟨entries, tail⟩ := inductionHypothesis each.2
      exact ⟨(name, x) :: entries, by rw [readEntries, named, head, tail]; rfl⟩

end Flat

/-- A document that says the same as some other one is read as a stored value. -/
theorem Json.exists_read {d e : Document} (same : d.Same e) : ∃ x, Json.read .stored d = .ok x := by
  induction d using Document.induction generalizing e with
  | null => exact ⟨_, rfl⟩
  | boolean b => exact ⟨_, rfl⟩
  | numeral n =>
      match e, same with
      | .numeral m, ⟨a, _, denoted, _⟩ =>
          have held : n.read .stored = .ok a := Numeral.read_stored denoted
          exact ⟨.number a, by rw [Json.read, held]; rfl⟩
  | literal l =>
      match e, same with
      | .literal m, ⟨s, held, _⟩ => exact ⟨.string s, by rw [Json.read, held]; rfl⟩
  | array items defect inductionHypothesis =>
      match defect, e, same with
      | none, .array others none, same =>
          obtain ⟨values, held⟩ : ∃ values, Json.readItems .stored items = .ok values := by
            rw [Json.readItems_eq]
            refine Flat.exists_readItems fun item inside => ?_
            obtain ⟨other, _, partner⟩ :=
              exists_of_forall₂ (Document.alikeItems_iff.mp same) inside
            exact inductionHypothesis item inside partner
          refine ⟨.array values, ?_⟩
          rw [Json.read, Source.enter, Problem.ok_bind, held]
          rfl
  | object members ending inductionHypothesis =>
      match ending, e, same with
      | .closed, .object others .closed, ⟨reordered, _, alike⟩ =>
          obtain ⟨values, held⟩ : ∃ values, Json.readMembers .stored members = .ok values := by
            rw [Json.readMembers_eq]
            refine Flat.exists_readEntries fun member inside => ?_
            obtain ⟨other, _, ⟨s, named, _⟩, partner⟩ :=
              exists_of_forall₂ (Document.alikeMembers_iff.mp alike) inside
            exact ⟨⟨s, named⟩, inductionHypothesis member inside partner⟩
          refine ⟨.ofMembers values, ?_⟩
          rw [Json.read, Source.enter, Problem.ok_bind, held]
          rfl
  | broken what => exact same.elim

/-- A well-formed node with finite numbers is stored as a value that is read as it is written. -/
theorem Node.storedAs_toJson {k : Kind} (n : Node k) (wellFormed : n.WellFormed)
    (finite : n.FloatsFinite) : n.document.StoredAs .stored n.document.toJson.document := by
  have regular := Node.regular wellFormed finite
  have comparable := n.comparable_of_finite regular
  have alike : n.document.Same n.document :=
    (related_iff_document n n regular regular).mp
      ((same_iff_related n n).mp (n.same_self comparable))
  obtain ⟨x, read⟩ := Json.exists_read alike
  have stored : n.document.toJson = x := by
    rw [Document.toJson, read]
  rw [stored]
  exact Json.storedAs_of_read (n.document_distinct wellFormed) read

/-- A node that is stored under a name is converted back to an equal node of the same hash. -/
theorem PropertyBag.read_insert_node {k : Kind} (bag : PropertyBag) (name : String) (v : Node k)
    (wellFormed : v.WellFormed) (finite : v.FloatsFinite) (inEra : v.DatesInEra) :
    ∃ m, PropertyBag.read (bag.insert name v.document.toJson) (.required (.node k)) name =
        .ok (some (.required (.node m))) ∧ v.same m = true ∧ v.hash = m.hash := by
  have stored := v.storedAs_toJson wellFormed finite
  have read : Value.read .stored (.node k) v.document = .ok (.node v) :=
    v.read_document .stored (v.faithful_stored wellFormed finite inEra)
  obtain ⟨w, read', same⟩ := (Value.agree_read stored (.node k)).of_eq_ok read
  match w with
  | .node m =>
      have held : (bag.insert name v.document.toJson).get? name = some v.document.toJson :=
        Dict.lookup_put bag.entries
      have comparable := v.comparable_of_finite (Node.regular wellFormed finite)
      exact ⟨m, (PropertyBag.read_eq_ok_iff held m).mpr read', Node.same_of_matches comparable same⟩

/-! ## The rest of the host -/

/-- A bag holds no children. -/
theorem FieldValue.children_bag (v : FieldValue (.optional .bag)) : v.children = [] := by
  cases v with
  | absent => rfl
  | present v =>
      match v with
      | .flat _ => rfl

namespace Node

variable {h k : Kind}

/-- A well-formed node of finite numbers and of date-times in the years 0000 to 9999 that is set
as a property takes the place of the value that was there, which is given back, and comes back as
an equal node of the same hash. The other properties keep their values and their order, and the
other fields and the children of the host are as they were. -/
theorem setProperty_node (host : Node h) (name : String) (v : Node k) (wellFormed : v.WellFormed)
    (finite : v.FloatsFinite) (inEra : v.DatesInEra) :
    ∃ host' bag, host.setProperty name (.node v) =
        (host', .ok (host.bag?.bind fun before => before.get? name)) ∧
      (∃ m, host'.property (.required (.node k)) name = .ok (some (.required (.node m))) ∧
        v.same m = true ∧ v.hash = m.hash) ∧
      host'.bag? = some bag ∧
      (∀ other, other ≠ name → bag.get? other = host.bag.get? other) ∧
      bag.entries.filter (fun entry => entry.1 ≠ name) =
        host.bag.entries.filter (fun entry => entry.1 ≠ name) ∧
      (∀ {f : Field} (place : Place h.fields f), f.name ≠ "properties" →
        host'.get place = host.get place) ∧
      host'.children = host.children := by
  have outcome : host.setProperty name (.node v) =
      (host.setBag (some (host.bag.insert name v.document.toJson)), .ok (host.bag.get? name)) := rfl
  have before : (host.bag?.bind fun before => before.get? name) = host.bag.get? name := by
    rw [bag]
    cases host.bag? <;> rfl
  have after : (host.setBag (some (host.bag.insert name v.document.toJson))).bag? =
      some (host.bag.insert name v.document.toJson) := get_set host h.properties _
  refine ⟨_, host.bag.insert name v.document.toJson, ?_, ?_, after, ?_, ?_, ?_, ?_⟩
  · rw [outcome, before]
  · rw [property, after]
    exact host.bag.read_insert_node name v wellFormed finite inEra
  · exact fun other apart => Dict.lookup_put_of_ne apart host.bag.entries
  · exact Dict.filter_put host.bag.entries
  · intro f place apart
    exact congrArg FieldValue.content
      (host.fields.get_set_of_ne h.properties _ place (Ne.symm apart))
  · refine host.fields.children_set h.properties _ ?_
    rw [FieldValue.children_bag, FieldValue.children_bag]

/-- A message that is set in the place of a null between two other properties comes back from it. -/
theorem setProperty_node_formattedMessage :
    ∃ host' m,
      (messageWithProperties
        [("first", .boolean true), ("note", .null), ("last", .null)]).setProperty
          "note" (.node formattedMessage) = (host', .ok (some .null)) ∧
        host'.property (.required (.node .message)) "note" = .ok (some (.required (.node m))) ∧
        formattedMessage.same m = true ∧
        host'.bag.entries.filter (fun entry => entry.1 ≠ "note") =
          [("first", .boolean true), ("last", .null)] := by
  have nothing : formattedMessage.Each (fun _ _ => True) (fun _ => True) :=
    ⟨trivial, trivial, trivial, trivial, trivial, trivial⟩
  have result := setProperty_node
    (messageWithProperties [("first", .boolean true), ("note", .null), ("last", .null)]) "note"
    formattedMessage nothing nothing nothing
  obtain ⟨host', bag, outcome, back, held, _, others, _⟩ := result
  obtain ⟨m, found, same, _⟩ := back
  refine ⟨host', m, outcome, found, same, ?_⟩
  rw [Node.bag, held]
  exact others

end Node
end Sarif
