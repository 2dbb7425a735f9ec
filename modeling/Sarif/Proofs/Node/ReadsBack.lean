import Sarif.Node.Read
import Sarif.Node.Write
import Sarif.Proofs.Node.Related
import Sarif.Proofs.Reading.Flat
import Sarif.Proofs.Text.Parsing

/-!
# Nodes read back

A well-formed node whose numbers are finite and whose date-times lie in the years 0000 to 9999 is
read from the document that it is written as, whatever stands around that document, as long as
the source admits its nesting. What the writer leaves out are exactly the fields that have their
defaults, and no two fields of a kind share a name, so a record is rebuilt field by field.
-/

namespace Sarif

/-! ## What the fields of a kind keep to -/

/-- Whether the values of a type can all be told from their documents. -/
def Ty.legible : Ty → Bool
  | flat f => f.legible
  | _ => true

/-- Whether some values of a type are written as null. -/
def Ty.showsNull : Ty → Bool
  | flat (.scalar s) => s.showsNull
  | _ => false

/-- Whether all that a field may hold can be told from what is written for it. -/
def FieldType.legible : FieldType → Bool
  | required t => t.legible
  | optional t => t.legible && !t.showsNull

/-- All that a field of a node may hold can be told from what is written for it. -/
theorem Kind.fields_legible (k : Kind) : (k.fields.all fun f => f.type.legible) = true := by
  cases k <;> rfl

/-- No two fields of a kind have one name. -/
theorem Kind.fields_distinct (k : Kind) : (k.fields.map Field.name).Nodup := by
  cases k <;> decide +kernel

/-! ## What the writer leaves out -/

/-- A field that is not written holds its default. -/
theorem FieldValue.eq_default_of_unwritten {t : FieldType} (v : FieldValue t)
    (unwritten : v.document? = none) : v = FieldValue.default t := by
  cases v with
  | absent => rfl
  | present v => cases unwritten
  | required v =>
      have unset : v.isUnset = true := by
        by_contra other
        simp [document?, other] at unwritten
      match v, unset with
      | .flat (f := .scalar .sentinel) x, unset =>
          have raw : x = Sentinel.unset := by
            obtain ⟨raw⟩ := x
            exact congrArg Sentinel.mk (beq_iff_eq.mp unset)
          rw [raw]
          rfl

/-- What the document of a record says of it. -/
def Record.draft : {fs : List Field} → Record fs → Draft fs
  | _, .nil => .nil
  | _, .cons v rest => .cons (if v.document?.isSome then some v else none) rest.draft

/-- What the document of a record does not say are the defaults. -/
theorem Record.finish_draft {fs : List Field} (r : Record fs) : r.draft.finish = r := by
  cases r with
  | nil => rfl
  | cons v rest =>
      rw [draft, Draft.finish, finish_draft rest]
      cases written : v.document? with
      | none =>
          have held := v.eq_default_of_unwritten written
          simp [← held]
      | some d => simp

/-- The members of a record have names of its fields. -/
theorem Record.name_of_mem_members : {fs : List Field} → (r : Record fs) →
    ∀ member ∈ r.members, ∃ name ∈ fs.map Field.name, member.1 = Literal.ofString name
  | _, .nil, member, inside => by cases inside
  | f :: fs, .cons v rest, member, inside => by
      have later : member ∈ rest.members →
          ∃ name ∈ (f :: fs).map Field.name, member.1 = Literal.ofString name := by
        intro inside
        obtain ⟨name, known, equal⟩ := name_of_mem_members rest member inside
        exact ⟨name, List.mem_cons_of_mem _ known, equal⟩
      rw [members] at inside
      split at inside
      · rcases List.mem_cons.mp inside with rfl | inside
        · exact ⟨f.name, List.mem_cons_self .., rfl⟩
        · exact later inside
      · exact later inside

/-! ## Drafts -/

namespace Draft

variable {source : Source} {fs : List Field} {literal : Literal} {name : String}

/-- Nothing is known of any field of a blank draft. -/
theorem get_blank : {fs : List Field} → {f : Field} → (place : Place fs f) →
    (blank fs).get place = none
  | _, _, .here => rfl
  | _, _, .later place => get_blank place

/-- A member of an unknown name is skipped. -/
theorem readMembers_unknown (named : literal.read = .ok name) (unknown : Place.find? name fs = none)
    (draft : Draft fs) (d : Document) (rest : List (Literal × Document)) :
    readMembers source draft ((literal, d) :: rest) =
      (Problem.guard d.skip >>= fun _ => readMembers source draft rest) := by
  rw [readMembers, named, Problem.ok_bind, unknown]

/-- A member of a known name is refused if its field has come before. -/
theorem readMembers_repeated (named : literal.read = .ok name) {f : Field} {place : Place fs f}
    (found : Place.find? name fs = some ⟨f, place⟩) {draft : Draft fs}
    (repeated : (draft.get place).isSome = true) (d : Document)
    (rest : List (Literal × Document)) :
    readMembers source draft ((literal, d) :: rest) =
      .error (.mismatch (.repeatedField name)) := by
  rw [readMembers, named, Problem.ok_bind, found]
  simp only [repeated, if_true]
  rfl

/-- A member of a known name gives its field a value. -/
theorem readMembers_known (named : literal.read = .ok name) {f : Field} {place : Place fs f}
    (found : Place.find? name fs = some ⟨f, place⟩) {draft : Draft fs}
    (fresh : (draft.get place).isSome = false) (d : Document)
    (rest : List (Literal × Document)) :
    readMembers source draft ((literal, d) :: rest) =
      (FieldValue.readWith (fun t => Value.read source t d) d f.type >>=
        fun v => readMembers source (draft.set place v) rest) := by
  rw [readMembers, named, Problem.ok_bind, found]
  simp only [fresh, Bool.false_eq_true, if_false]

/-- Members of other names do not touch the first field of a draft. -/
theorem readMembers_cons {f : Field} (v : Option (FieldValue f.type))
    {members : List (Literal × Document)}
    (others : ∀ member ∈ members, ∃ name, member.1.read = .ok name ∧ name ≠ f.name)
    (draft : Draft fs) :
    readMembers source (.cons v draft) members =
      (readMembers source draft members).map (.cons v) := by
  induction members generalizing draft with
  | nil =>
      rw [readMembers, readMembers]
      rfl
  | cons member rest inductionHypothesis =>
      obtain ⟨literal, d⟩ := member
      obtain ⟨name, named, other⟩ := others _ (List.mem_cons_self ..)
      have tail := inductionHypothesis fun member inside =>
        others member (List.mem_cons_of_mem _ inside)
      cases found : Place.find? name fs with
      | none =>
          have beyond : Place.find? name (f :: fs) = none := by
            rw [Place.find?, if_neg (Ne.symm other), found, Option.map_none]
          rw [readMembers_unknown named beyond, readMembers_unknown named found]
          cases Problem.guard d.skip with
          | error problem => rfl
          | ok _ => exact tail draft
      | some known =>
          obtain ⟨g, place⟩ := known
          have beyond : Place.find? name (f :: fs) = some ⟨g, .later place⟩ := by
            rw [Place.find?, if_neg (Ne.symm other), found, Option.map_some]
          cases come : (draft.get place).isSome with
          | true =>
              have repeated : (get (.cons v draft) (.later place)).isSome = true := come
              rw [readMembers_repeated named beyond repeated, readMembers_repeated named found come]
              rfl
          | false =>
              have fresh : (get (.cons v draft) (.later place)).isSome = false := come
              rw [readMembers_known named beyond fresh, readMembers_known named found come]
              cases FieldValue.readWith (fun t => Value.read source t d) d g.type with
              | error problem => rfl
              | ok w => exact tail (draft.set place w)

end Draft

/-! ## Field by field -/

/-- What is read of a field from what is written for it: nothing, if it is not written. -/
def FieldValue.reread (source : Source) {t : FieldType} (v : FieldValue t) :
    Except Problem (Option (FieldValue t)) :=
  match v.document? with
  | none => .ok none
  | some d => (readWith (fun t => Value.read source t d) d t).map some

/-- A record is read from its members field by field. -/
theorem Record.readMembers_cons {source : Source} {f : Field} {fs : List Field}
    (v : FieldValue f.type) (rest : Record fs) (fresh : f.name ∉ fs.map Field.name) :
    Draft.readMembers source (Draft.blank (f :: fs)) (cons v rest).members =
      (v.reread source >>= fun known =>
        (Draft.readMembers source (Draft.blank fs) rest.members).map (.cons known)) := by
  have others : ∀ member ∈ rest.members, ∃ name, member.1.read = .ok name ∧ name ≠ f.name := by
    intro member inside
    obtain ⟨name, known, equal⟩ := rest.name_of_mem_members member inside
    exact ⟨name, equal ▸ Literal.read_ofString name, fun same => fresh (same ▸ known)⟩
  rw [members, FieldValue.reread]
  cases v.document? with
  | none => exact Draft.readMembers_cons _ others _
  | some d =>
      have found : Place.find? f.name (f :: fs) = some ⟨f, .here⟩ := if_pos rfl
      dsimp only
      rw [Draft.readMembers_known (Literal.read_ofString _) found rfl]
      cases FieldValue.readWith (fun t => Value.read source t d) d f.type with
      | error problem => rfl
      | ok w => exact Draft.readMembers_cons _ others _

/-! ## Values, fields and records -/

/-- A value is not written as null, unless it is a scalar of a type with such values. -/
theorem Value.document_shown {float? : Numeral → Option Binary64} {t : Ty} (v : Value t)
    (shows : t.showsNull = false) (faithful : v.Each (Scalar.Faithful float?) List.Nodup) :
    v.document.Shown := by
  cases v with
  | flat x =>
      refine Flat.document_shown (fun s equal => ?_) faithful
      subst equal
      exact shows
  | node n =>
      obtain ⟨fields⟩ := n
      trivial
  | nodes s => trivial
  | nodeMap e => trivial

/-- What may be absent is read as its value when its document is not null. -/
theorem FieldValue.readWith_of_shown {read : (t : Ty) → Except Problem (Value t)} {d : Document}
    (shown : d.Shown) (t : Ty) :
    readWith read d (.optional t) = (read t).map .present := by
  cases d <;> first | rfl | exact shown.elim

-- The recursion is on the node, which knows the kinds of its parts; its document does not.
mutual

/-- A node is read from its document. -/
theorem Node.read_document : {k : Kind} → (n : Node k) → (source : Source) →
    n.Each (Scalar.Faithful source.float?) List.Nodup →
    Value.read source (.node k) n.document = source.within n.document.nesting (.node n)
  | k, .mk fields, source, faithful => by
      have rebuilt : Value.node (Node.mk fields.draft.finish) = .node (.mk fields) := by
        rw [Record.finish_draft]
      rw [Node.document, Value.read, Document.nesting]
      exact Source.enter_bind_make
        (fun inner same =>
          Record.read_members fields k.fields_legible k.fields_distinct inner (same ▸ faithful))
        rebuilt

/-- A value is read from its document. -/
theorem Value.read_document : {t : Ty} → (v : Value t) → t.legible = true → (source : Source) →
    v.Each (Scalar.Faithful source.float?) List.Nodup →
    Value.read source t v.document = source.within v.document.nesting v
  | _, .flat x, legible, source, faithful => by
      rw [Value.document, Value.read, Flat.read_document _ legible x source faithful]
      exact source.map_within _ _ _
  | _, .node n, _, source, faithful => Node.read_document n source faithful
  | _, .nodes s, _, source, faithful => by
      rw [Value.document, Value.read, Document.nesting]
      exact Source.enter_bind_make
        (fun inner same => Slots.read_documents s inner (same ▸ faithful))
        (congrArg Value.nodes s.ofList_toList)
  | _, .nodeMap e, _, source, faithful => by
      have distinct : (e.toList.map Prod.fst).Nodup := Entries.keys_eq_toList e ▸ faithful.1
      have rebuilt : Entries.ofDict (Dict.ofList e.toList) = e := by
        rw [Dict.ofList_of_nodup distinct, Entries.ofDict, Entries.ofList_toList]
      rw [Value.document, Value.read, Document.nesting]
      exact Source.enter_bind_make
        (fun inner same => Entries.read_members e inner (same ▸ faithful.2))
        (congrArg Value.nodeMap rebuilt)

/-- A field is read from what is written for it. -/
theorem FieldValue.read_document? : {t : FieldType} → (v : FieldValue t) → t.legible = true →
    (source : Source) → v.Each (Scalar.Faithful source.float?) List.Nodup → (d : Document) →
    v.document? = some d →
    FieldValue.readWith (fun t => Value.read source t d) d t = source.within d.nesting v
  | _, .required v, legible, source, faithful, d, written => by
      have same : v.document = d := by
        rw [FieldValue.document?] at written
        split at written
        · cases written
        · exact Option.some.inj written
      subst same
      rw [FieldValue.readWith, Value.read_document v legible source faithful]
      exact source.map_within _ _ _
  | _, .present v, legible, source, faithful, d, written => by
      have both := Bool.and_eq_true_iff.mp legible
      have shows := (Bool.not_eq_true' _).mp both.2
      obtain rfl : v.document = d := Option.some.inj written
      rw [FieldValue.readWith_of_shown (v.document_shown shows faithful),
        Value.read_document v both.1 source faithful]
      exact source.map_within _ _ _

/-- A record is read from its members. -/
theorem Record.read_members : {fs : List Field} → (r : Record fs) →
    (fs.all fun f => f.type.legible) = true → (fs.map Field.name).Nodup →
    (source : Source) → r.Each (Scalar.Faithful source.float?) List.Nodup →
    Draft.readMembers source (Draft.blank fs) r.members =
      source.within (Document.membersNesting r.members) r.draft
  | _, .nil, _, _, source, _ => by
      rw [Record.members, Draft.readMembers]
      exact (source.within_zero _).symm
  | f :: fs, .cons v rest, legible, distinct, source, faithful => by
      rw [List.all_cons, Bool.and_eq_true] at legible
      rw [List.map_cons, List.nodup_cons] at distinct
      have tail := Record.read_members rest legible.2 distinct.2 source faithful.2
      rw [Record.readMembers_cons v rest distinct.1, tail, FieldValue.reread, Record.members,
        Record.draft]
      cases written : v.document? with
      | none => exact source.map_within _ _ _
      | some d =>
          have head := FieldValue.read_document? v legible.1 source faithful.1 d written
          dsimp only
          rw [head, Source.map_within, Document.membersNesting]
          exact Source.bind_within (source.map_within _ _ _)

/-- A list of nodes is read from the documents of its slots. -/
theorem Slots.read_documents : {k : Kind} → (s : Slots k) → (source : Source) →
    s.Each (Scalar.Faithful source.float?) List.Nodup →
    Slots.read source k s.documents =
      source.within (Document.itemsNesting s.documents) s.toList
  | _, .nil, source, _ => by
      rw [Slots.documents, Slots.read]
      exact (source.within_zero _).symm
  | _, .empty rest, source, faithful => by
      have tail := Slots.read_documents rest source faithful
      rw [Slots.documents, Slots.read, tail, Document.itemsNesting]
      have none : Document.null.nesting = 0 := rfl
      rw [none, Nat.max_eq_right (Nat.zero_le _)]
      exact Source.bind_within_ok rfl
  | _, .full n rest, source, faithful => by
      have head := Node.read_document n source faithful.1
      have tail := Slots.read_documents rest source faithful.2
      have shown : n.document.isNull = false := by
        obtain ⟨fields⟩ := n
        rfl
      rw [Slots.documents, Slots.read, shown, head, tail, Document.itemsNesting]
      simp only [Bool.false_eq_true, if_false, Source.map_within]
      exact Source.bind_within (Source.bind_within_ok rfl)

/-- A map of nodes is read from its members. -/
theorem Entries.read_members : {k : Kind} → (e : Entries k) → (source : Source) →
    e.Each (Scalar.Faithful source.float?) List.Nodup →
    Entries.read source k e.members =
      source.within (Document.membersNesting e.members) e.toList
  | _, .nil, source, _ => by
      rw [Entries.members, Entries.read]
      exact (source.within_zero _).symm
  | _, .cons key n rest, source, faithful => by
      have head := Node.read_document n source faithful.1
      have tail := Entries.read_members rest source faithful.2
      rw [Entries.members, Entries.read, Literal.read_ofString, Problem.ok_bind, head, tail,
        Document.membersNesting]
      exact Source.bind_within (Source.bind_within_ok rfl)

end

end Sarif
