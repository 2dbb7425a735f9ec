import Sarif.Node.FieldNames
import Sarif.Proofs.Hash.Consistency
import Sarif.Proofs.Node.Fits
import Sarif.Proofs.Node.RoundTrip
import Sarif.Proofs.Reading.StoredFlat
import Sarif.PropertyBag

/-!
# Nodes of texts and of stored values

A text is loaded as a node exactly when the value stored for it is converted to one, and the two
nodes are equal and have one hash, provided that no object in the text has a name twice. The
members of a stored object come in the order of their names, so what has to be shown of a node is
that the order of its members does not matter: each member fails in every state of the draft, or
leaves the draft as it is, or sets the field of its name, which must be new.
-/

namespace Sarif

/-! ## One member of an object -/

/-- The field that is found under a name has that name. -/
theorem Place.name_of_find? {name : String} : {fs : List Field} → {f : Field} →
    {place : Place fs f} → Place.find? name fs = some ⟨f, place⟩ → f.name = name
  | [], _, _, found => nomatch found
  | g :: fs, f, place, found => by
      rw [find?] at found
      split at found
      · next same =>
          cases found
          exact same
      · obtain ⟨⟨h, inner⟩, held, same⟩ := Option.map_eq_some_iff.mp found
        cases same
        exact name_of_find? held

/-- A field with a place in a list is one of the list. -/
theorem Place.mem : {fs : List Field} → {f : Field} → Place fs f → f ∈ fs
  | _ :: _, _, .here => List.mem_cons_self
  | _ :: _, _, .later place => List.mem_cons_of_mem _ place.mem

/-- No field is found under a name that none has. -/
theorem Place.find?_eq_none {name : String} {fs : List Field} (strange : name ∉ fs.map Field.name) :
    find? name fs = none := by
  cases found : find? name fs with
  | none => rfl
  | some known =>
      exact absurd (name_of_find? found ▸ List.mem_map_of_mem known.2.mem) strange

/-- A field of a list is found under its name, if no two fields have one name. -/
theorem Place.exists_find? {f : Field} : {fs : List Field} → (fs.map Field.name).Nodup → f ∈ fs →
    ∃ place, find? f.name fs = some ⟨f, place⟩
  | [], _, known => nomatch known
  | g :: fs, distinct, known => by
      obtain ⟨fresh, rest⟩ := List.nodup_cons.mp distinct
      rcases List.mem_cons.mp known with rfl | later
      · exact ⟨.here, if_pos rfl⟩
      · obtain ⟨place, found⟩ := exists_find? rest later
        have other : g.name ≠ f.name := fun same => fresh (same ▸ List.mem_map_of_mem later)
        exact ⟨.later place, by rw [find?, if_neg other, found, Option.map_some]⟩

/-- A field of a kind is found under its name. -/
theorem Kind.exists_find? (k : Kind) {f : Field} (known : f ∈ k.fields) :
    ∃ place, Place.find? f.name k.fields = some ⟨f, place⟩ :=
  Place.exists_find? k.fields_distinct known

namespace Draft

/-- Setting a field leaves the fields of other names as they are. -/
theorem get_set_of_ne : {fs : List Field} → {f g : Field} → (draft : Draft fs) →
    (p : Place fs f) → (v : FieldValue f.type) → (q : Place fs g) → f.name ≠ g.name →
    (draft.set p v).get q = draft.get q
  | _, _, _, cons _ _, .here, _, .here, other => (other rfl).elim
  | _, _, _, cons _ _, .here, _, .later _, _ => rfl
  | _, _, _, cons _ _, .later _, _, .here, _ => rfl
  | _, _, _, cons _ rest, .later p, v, .later q, other => get_set_of_ne rest p v q other

/-- A field that is set is known. -/
theorem get_set : {fs : List Field} → {f : Field} → (draft : Draft fs) → (place : Place fs f) →
    (v : FieldValue f.type) → (draft.set place v).get place = some v
  | _, _, cons _ _, .here, _ => rfl
  | _, _, cons _ rest, .later place, v => get_set rest place v

/-- Fields of two names may be set in either order. -/
theorem set_comm : {fs : List Field} → {f g : Field} → (draft : Draft fs) →
    (p : Place fs f) → (v : FieldValue f.type) → (q : Place fs g) → (w : FieldValue g.type) →
    f.name ≠ g.name → (draft.set p v).set q w = (draft.set q w).set p v
  | _, _, _, cons _ _, .here, _, .here, _, other => (other rfl).elim
  | _, _, _, cons _ _, .here, _, .later _, _, _ => rfl
  | _, _, _, cons _ _, .later _, _, .here, _, _ => rfl
  | _, _, _, cons u rest, .later p, v, .later q, w, other =>
      congrArg (cons u) (set_comm rest p v q w other)

variable {fs : List Field} {source : Source}

/-- Reads one member of an object into a draft. -/
def readMember (source : Source) (draft : Draft fs) (member : Literal × Document) :
    Except Problem (Draft fs) := do
  let name ← member.1.read
  match Place.find? name fs with
  | none =>
    Problem.guard member.2.skip
    return draft
  | some ⟨f, place⟩ =>
    if (draft.get place).isSome then throw (.mismatch (.repeatedField name))
    let v ← FieldValue.readWith (fun t => Value.read source t member.2) member.2 f.type
    return draft.set place v

/-- The members of an object are read one after the other. -/
theorem readMembers_eq_bind (draft : Draft fs) (member : Literal × Document)
    (rest : List (Literal × Document)) :
    readMembers source draft (member :: rest) =
      (readMember source draft member >>= fun next => readMembers source next rest) := by
  rw [readMembers, readMember]
  cases member.1.read with
  | error problem => rfl
  | ok name =>
      simp only [Problem.ok_bind]
      cases Place.find? name fs with
      | none => cases Problem.guard member.2.skip <;> rfl
      | some found =>
          obtain ⟨f, place⟩ := found
          dsimp only
          split
          · rfl
          · cases FieldValue.readWith (fun t => Value.read source t member.2) member.2 f.type <;>
              rfl

/-- A run of members is read one part after the other. -/
theorem readMembers_append (draft : Draft fs) (members others : List (Literal × Document)) :
    readMembers source draft (members ++ others) =
      (readMembers source draft members >>= fun next => readMembers source next others) := by
  induction members generalizing draft with
  | nil =>
      rw [List.nil_append, readMembers]
      rfl
  | cons member rest inductionHypothesis =>
      rw [List.cons_append, readMembers_eq_bind, readMembers_eq_bind, bind_assoc]
      exact congrArg _ (funext inductionHypothesis)

/-- What a member does: it fails, or it is skipped, or it sets the field of its name, which must be
new. -/
theorem readMember_cases (fs : List Field) (source : Source) (member : Literal × Document) :
    (∀ (draft next : Draft fs), readMember source draft member ≠ .ok next) ∨
      (∀ draft : Draft fs, readMember source draft member = .ok draft) ∨
      ∃ (f : Field) (place : Place fs f) (v : FieldValue f.type), member.1.read = .ok f.name ∧
        Place.find? f.name fs = some ⟨f, place⟩ ∧
        ∀ draft : Draft fs, readMember source draft member =
          if (draft.get place).isSome then .error (.mismatch (.repeatedField f.name))
          else .ok (draft.set place v) := by
  unfold readMember
  cases named : member.1.read with
  | error problem =>
      refine .inl fun draft next success => ?_
      cases success
  | ok name =>
      simp only [Problem.ok_bind]
      cases found : Place.find? name fs with
      | none =>
          cases Problem.guard member.2.skip with
          | error problem =>
              refine .inl fun draft next success => ?_
              cases success
          | ok _ => exact .inr (.inl fun _ => rfl)
      | some known =>
          obtain ⟨f, place⟩ := known
          obtain rfl := Place.name_of_find? found
          dsimp only
          cases FieldValue.readWith (fun t => Value.read source t member.2) member.2 f.type with
          | error problem =>
              refine .inl fun draft next success => ?_
              split at success <;> cases success
          | ok v =>
              refine .inr (.inr ⟨f, place, v, rfl, found, fun draft => ?_⟩)
              split <;> rfl

/-- Two members may be read in either order. -/
theorem agree_readMember_comm (one other : Literal × Document) (draft : Draft fs) :
    Agree Eq (readMember source draft one >>= fun next => readMember source next other)
      (readMember source draft other >>= fun next => readMember source next one) := by
  rcases readMember_cases fs source one with fails | skipped | ⟨f, p, v, _, found, sets⟩
  · exact .comm_of_fails fails draft
  · exact .comm_of_skips skipped draft
  rcases readMember_cases fs source other with fails | skipped | ⟨g, q, w, _, found', sets'⟩
  · refine Agree.symm ?_
    exact .comm_of_fails fails draft
  · refine Agree.symm ?_
    exact .comm_of_skips skipped draft
  by_cases names : f.name = g.name
  · -- Of two members of one name whichever comes second is refused.
    rw [names, found'] at found
    cases found
    rw [sets draft, sets' draft]
    cases known : (draft.get p).isSome <;>
      simp only [Bool.false_eq_true, if_true, if_false, Problem.ok_bind, sets, sets', get_set,
        Option.isSome_some]
    · trivial
    · trivial
  · -- What one member sets the other finds as it was, so each fails after the other if it fails at
    -- once.
    have kept := get_set_of_ne draft p v q names
    have kept' := get_set_of_ne draft q w p (Ne.symm names)
    rw [sets draft, sets' draft]
    cases first : (draft.get p).isSome <;> cases second : (draft.get q).isSome <;>
      simp only [Bool.false_eq_true, if_true, if_false, Problem.ok_bind, sets, sets', kept, kept',
        first, second]
    · exact set_comm draft p v q w names
    · trivial
    · trivial
    · trivial

/-- Members may come in any order. -/
theorem agree_readMembers_of_perm {members others : List (Literal × Document)}
    (perm : members.Perm others) (draft : Draft fs) :
    Agree Eq (readMembers source draft members) (readMembers source draft others) := by
  induction perm generalizing draft with
  | nil => exact .refl _
  | cons member _ inductionHypothesis =>
      rw [readMembers_eq_bind, readMembers_eq_bind]
      exact (Agree.refl _).bind fun next _ same => same ▸ inductionHypothesis next
  | swap one other rest =>
      simp only [readMembers_eq_bind, ← bind_assoc]
      exact (agree_readMember_comm other one draft).bind fun _ _ same => same ▸ .refl _
  | trans first _ inductionHypothesis inductionHypothesis' =>
      exact (inductionHypothesis draft).trans (fun _ _ _ one other => one.trans other)
        (inductionHypothesis' draft)

end Draft

/-! ## Drafts of the two readers -/

/-- Values that are equal up to the order of maps. -/
abbrev Value.Matches {t : Ty} (v w : Value t) : Prop :=
  v.Related Scalar.Identical w

/-- Fields that are equal up to the order of maps. -/
abbrev FieldValue.Matches {t : FieldType} (v w : FieldValue t) : Prop :=
  v.Related Scalar.Identical w

namespace Draft

/-- Drafts of which the same fields are known, with values equal up to the order of maps. -/
def Matches : {fs : List Field} → Draft fs → Draft fs → Prop
  | _, nil, _ => True
  | _, cons v rest, draft => match draft with
    | cons w more => Option.Rel FieldValue.Matches v w ∧ rest.Matches more

/-- A blank draft matches itself. -/
theorem matches_blank : (fs : List Field) → (blank fs).Matches (blank fs)
  | [] => trivial
  | _ :: fs => ⟨.none, matches_blank fs⟩

/-- What is known of a field in matching drafts matches. -/
theorem Matches.get : {fs : List Field} → {f : Field} → {draft draft' : Draft fs} →
    draft.Matches draft' → (place : Place fs f) →
    Option.Rel FieldValue.Matches (draft.get place) (draft'.get place)
  | _, _, cons _ _, cons _ _, same, .here => same.1
  | _, _, cons _ _, cons _ _, same, .later place => get same.2 place

/-- Matching drafts know of the same fields. -/
theorem Matches.isSome_get {fs : List Field} {f : Field} {draft draft' : Draft fs}
    (same : draft.Matches draft') (place : Place fs f) :
    (draft.get place).isSome = (draft'.get place).isSome := by
  have held := same.get place
  generalize draft.get place = known at held ⊢
  generalize draft'.get place = known' at held ⊢
  cases held <;> rfl

/-- Drafts keep matching when a field is set to matching values. -/
theorem Matches.set : {fs : List Field} → {f : Field} → {draft draft' : Draft fs} →
    draft.Matches draft' → (place : Place fs f) → {v w : FieldValue f.type} → v.Matches w →
    (draft.set place v).Matches (draft'.set place w)
  | _, _, cons _ _, cons _ _, same, .here, _, _, held => ⟨.some held, same.2⟩
  | _, _, cons _ _, cons _ _, same, .later place, _, _, held => ⟨same.1, set same.2 place held⟩

/-- Matching drafts are finished as matching records. -/
theorem Matches.finish : {fs : List Field} → {draft draft' : Draft fs} → draft.Matches draft' →
    draft.finish.Related Scalar.Identical draft'.finish
  | _, nil, nil, _ => trivial
  | f :: _, cons v rest, cons w more, same => by
      refine ⟨?_, finish same.2⟩
      have default : (FieldValue.default f.type).Matches (FieldValue.default f.type) :=
        FieldValue.Related.refl (fun _ _ _ => rfl) _ (FieldValue.default_faithful .stored f.type)
      cases v with
      | none =>
          cases w with
          | none => exact default
          | some w => exact nomatch same.1
      | some v =>
          cases w with
          | none => exact nomatch same.1
          | some w => exact Option.rel_some_some.mp same.1

end Draft

/-! ## Reading -/

section Readers

variable {source : Source} {d e : Document}

/-- What may be absent is read alike when values of its type are. -/
theorem FieldValue.agree_readWith {relate : Numeral → Numeral → Prop} (alike : d.Alike relate e)
    (each : ∀ t, Agree Value.Matches (Value.read source t d) (Value.read .stored t e))
    (t : FieldType) :
    Agree FieldValue.Matches (readWith (fun t => Value.read source t d) d t)
      (readWith (fun t => Value.read .stored t e) e t) := by
  cases t with
  | required t => exact (each t).map fun _ _ same => same
  | optional t =>
      rcases alike.null_or_shown with ⟨rfl, rfl⟩ | ⟨shown, shown'⟩
      · exact trivial
      · rw [readWith_of_shown shown, readWith_of_shown shown']
        exact (each t).map fun _ _ same => same

/-- A document and the one it is stored as, of which all values are read alike. -/
structure Document.ReadAlike (source : Source) (d e : Document) : Prop where
  alike : d.Alike (Numeral.StoredAs source) e
  values : ∀ t, Agree Value.Matches (Value.read source t d) (Value.read .stored t e)

/-- Members of one name with values that are read alike. -/
abbrev Document.MembersAlike (source : Source) (member other : Literal × Document) : Prop :=
  member.1.Alike other.1 ∧ member.2.ReadAlike source other.2

namespace Draft

/-- Members of one name are read into matching drafts alike. -/
theorem agree_readMember {fs : List Field} {draft draft' : Draft fs} (same : draft.Matches draft')
    {member other : Literal × Document} (names : member.1.Alike other.1)
    (held : member.2.ReadAlike source other.2) :
    Agree Matches (readMember source draft member) (readMember .stored draft' other) := by
  obtain ⟨name, first, second⟩ := names
  have skipped : Problem.guard member.2.skip = Problem.guard other.2.skip := by
    rw [held.alike.skip_eq_none, held.alike.skip_eq_none']
  rw [readMember, readMember, first, second]
  simp only [Problem.ok_bind]
  cases Place.find? name fs with
  | none =>
      rw [skipped]
      exact (Agree.refl _).bind fun _ _ _ => same
  | some found =>
      obtain ⟨f, place⟩ := found
      dsimp only
      rw [same.isSome_get place]
      split
      · trivial
      · exact (FieldValue.agree_readWith held.alike held.values f.type).bind
          fun _ _ matching => same.set place matching

/-- Members that are alike one by one are read into matching drafts alike. -/
theorem agree_readMembers {fs : List Field} {members others : List (Literal × Document)}
    (each : List.Forall₂ (Document.MembersAlike source) members others) {draft draft' : Draft fs}
    (same : draft.Matches draft') :
    Agree Matches (readMembers source draft members) (readMembers .stored draft' others) := by
  induction each generalizing draft draft' with
  | nil => exact same
  | cons head _ inductionHypothesis =>
      rw [readMembers_eq_bind, readMembers_eq_bind]
      exact (agree_readMember same head.1 head.2).bind fun _ _ => inductionHypothesis

/-- Members that are alike in some order are read into matching drafts alike. -/
theorem agree_readMembers_of_reordered {fs : List Field}
    {members others reordered : List (Literal × Document)} (perm : others.Perm reordered)
    (each : List.Forall₂ (Document.MembersAlike source) members reordered)
    {draft draft' : Draft fs} (same : draft.Matches draft') :
    Agree Matches (readMembers source draft members) (readMembers .stored draft' others) := by
  have moved :
      Agree Eq (readMembers .stored draft' reordered) (readMembers .stored draft' others) :=
    agree_readMembers_of_perm perm.symm draft'
  refine (agree_readMembers each same).trans ?_ moved
  rintro _ _ _ same rfl
  exact same

/-- Items of a node in positional form are read alike. -/
theorem agree_readItems {items others : List Document}
    (each : List.Forall₂ (Document.ReadAlike source) items others) (total total' : Nat)
    (fs : List Field) :
    Agree Matches (readItems source total fs items) (readItems .stored total' fs others) := by
  induction each generalizing fs with
  | nil => exact matches_blank fs
  | cons head _ inductionHypothesis =>
      cases fs with
      | nil => trivial
      | cons f fs =>
          rw [readItems, readItems]
          exact (FieldValue.agree_readWith head.alike head.values f.type).bind fun _ _ first =>
            (inductionHypothesis fs).bind fun _ _ rest => ⟨.some first, rest⟩

end Draft

/-- A document that is shown is not null. -/
theorem Document.Shown.isNull_eq_false {d : Document} (shown : d.Shown) : d.isNull = false := by
  cases d <;> first | rfl | exact shown.elim

/-- Matching values of a node type are matching nodes. -/
theorem Value.Matches.toNode {k : Kind} {v w : Value (.node k)} (same : v.Matches w) :
    v.toNode.Related Scalar.Identical w.toNode := by
  match v, w with
  | .node _, .node _ => exact same

/-- Slots of a list of nodes are read alike. -/
theorem Slots.agree_read {k : Kind} {items others : List Document}
    (each : List.Forall₂ (Document.ReadAlike source) items others) :
    Agree (fun s t => (Slots.ofList s).Related Scalar.Identical (Slots.ofList t))
      (Slots.read source k items) (Slots.read .stored k others) := by
  induction each with
  | nil => exact trivial
  | @cons d e _ _ head _ inductionHypothesis =>
      have more {slot slot' : Option (Node k)} (first : Option.Rel (Node.Related Scalar.Identical)
          slot slot') {slots slots' : List (Option (Node k))}
          (rest : (ofList slots).Related Scalar.Identical (ofList slots')) :
          (ofList (slot :: slots)).Related Scalar.Identical (ofList (slot' :: slots')) := by
        cases first with
        | none => exact rest
        | some same => exact ⟨same, rest⟩
      rw [Slots.read, Slots.read]
      rcases head.alike.null_or_shown with ⟨rfl, rfl⟩ | ⟨shown, shown'⟩
      · exact inductionHypothesis.bind fun _ _ rest => more .none rest
      · rw [shown.isNull_eq_false, shown'.isNull_eq_false]
        exact ((head.values (.node k)).map fun _ _ same => .some same.toNode).bind
          fun _ _ first => inductionHypothesis.bind fun _ _ rest => more first rest

/-- Entries of a map of nodes are read one by one. -/
theorem Entries.read_eq (source : Source) (k : Kind) (members : List (Literal × Document)) :
    Entries.read source k members =
      Flat.readEntries (fun d => (Value.read source (.node k) d).map Value.toNode) members := by
  induction members with
  | nil => rfl
  | cons member rest inductionHypothesis =>
      rw [Entries.read, Flat.readEntries, inductionHypothesis]
      cases member.1.read with
      | error problem => rfl
      | ok name => cases Value.read source (.node k) member.2 <;> rfl

/-- Entries of a map of nodes are read alike when the members are alike in some order. -/
theorem Entries.agree_read {k : Kind} {members others reordered : List (Literal × Document)}
    (perm : others.Perm reordered) (distinct : (Document.names members).Nodup)
    (each : List.Forall₂ (Document.MembersAlike source) members reordered) :
    Agree (fun xs ys => Value.Matches (.nodeMap (ofDict (Dict.ofList xs)))
        (.nodeMap (ofDict (Dict.ofList ys))))
      (Entries.read source k members) (Entries.read .stored k others) := by
  have aligned : Agree (fun xs ys => (xs.map Prod.fst).Nodup ∧
      Dict.Aligned (Node.Related Scalar.Identical) xs ys)
      (Entries.read source k members) (Entries.read .stored k others) := by
    rw [Entries.read_eq, Entries.read_eq]
    refine Flat.agree_readEntries_of_reordered perm distinct ?_
    exact each.imp fun _ _ pair =>
      ⟨pair.1, (pair.2.values (.node k)).map fun _ _ same => same.toNode⟩
  refine aligned.imp fun xs ys _ _ result => ?_
  refine (Entries.related_iff_toDict _ _).mpr ?_
  rw [Entries.toDict_ofDict, Entries.toDict_ofDict]
  exact Dict.related_ofList result.1 result.2

/-- A document and the one it is stored as are read alike as a flat value. -/
theorem Value.agree_read_flat (stored : d.StoredAs source e) (f : Flat) :
    Agree Value.Matches (Value.read source (.flat f) d) (Value.read .stored (.flat f) e) := by
  rw [Value.read, Value.read]
  exact (f.agree_read stored).map fun _ _ same => same

/-- A document that is neither an array nor an object is read alike. -/
theorem Value.agree_read_plain (plain : d.nesting = 0) (stored : d.StoredAs source e) (t : Ty) :
    Agree Value.Matches (Value.read source t d) (Value.read .stored t e) := by
  match d, e, stored, stored.alike, plain with
  | .null, .null, stored, _, _ | .boolean _, .boolean _, stored, _, _ |
    .numeral _, .numeral _, stored, _, _ | .literal _, .literal _, stored, _, _ =>
      cases t with
      | flat f => exact agree_read_flat stored f
      | _ => exact Agree.refuse _ _ _ _

/-- A document and the one it is stored as are read alike as a value of any type. -/
theorem Value.agree_read (stored : d.StoredAs source e) (t : Ty) :
    Agree Value.Matches (Value.read source t d) (Value.read .stored t e) := by
  induction d using Document.induction generalizing source e t with
  | null => exact agree_read_plain rfl stored t
  | boolean b => exact agree_read_plain rfl stored t
  | numeral n => exact agree_read_plain rfl stored t
  | literal l => exact agree_read_plain rfl stored t
  | array items defect inductionHypothesis =>
      match defect, e, stored, stored.alike with
      | none, .array others none, stored, _ =>
          have each (inner : Source) (entered : source.enter = .ok inner) :
              List.Forall₂ (Document.ReadAlike inner) items others :=
            ((List.forall₂_and_left _ _).mpr ⟨inductionHypothesis, stored.items entered⟩).imp
              fun _ _ pair => ⟨pair.2.alike, fun t => pair.1 pair.2 t⟩
          cases t with
          | flat f => exact agree_read_flat stored f
          | node k =>
              rw [Value.read, Value.read]
              exact Agree.enter stored.admitted
                (fun inner entered => Draft.agree_readItems (each inner entered) _ _ _)
                (fun _ _ same => same.finish)
          | nodes k =>
              rw [Value.read, Value.read]
              exact Agree.enter stored.admitted
                (fun inner entered => Slots.agree_read (each inner entered)) (fun _ _ same => same)
          | nodeMap k => exact Agree.refuse _ _ _ _
  | object members ending inductionHypothesis =>
      match ending, e, stored, stored.alike with
      | .closed, .object others .closed, stored, _ =>
          obtain ⟨distinct, reordered, perm, distinct', aligned⟩ := stored.members
          have each (inner : Source) (entered : source.enter = .ok inner) :
              List.Forall₂ (Document.MembersAlike inner) members reordered :=
            ((List.forall₂_and_left _ _).mpr ⟨inductionHypothesis, aligned inner entered⟩).imp
              fun _ _ pair => ⟨pair.2.1, pair.2.2.alike, fun t => pair.1 pair.2.2 t⟩
          cases t with
          | flat f => exact agree_read_flat stored f
          | node k =>
              rw [Value.read, Value.read]
              exact Agree.enter stored.admitted
                (fun inner entered => Draft.agree_readMembers_of_reordered perm (each inner entered)
                  (Draft.matches_blank k.fields))
                (fun _ _ same => same.finish)
          | nodes k => exact Agree.refuse _ _ _ _
          | nodeMap k =>
              rw [Value.read, Value.read]
              exact Agree.enter stored.admitted
                (fun inner entered => Entries.agree_read perm distinct (each inner entered))
                (fun _ _ same => same)
  | broken what => exact stored.alike.elim

end Readers

/-! ## Loading and converting -/

namespace FieldType

/-- What is loaded from a text is read from its one document. -/
theorem load_eq_read {text : String} {d : Document}
    (parsed : Document.ofText text.toList = (d, false)) (t : FieldType) :
    t.load text = FieldValue.read .start t d := by
  rw [load, parsed]
  simp only [Bool.false_eq_true, if_false]
  exact bind_pure _

/-- A JSON value is loaded from a text of one document when it is read from the document. -/
theorem load_json_eq_ok_iff {text : String} {d : Document}
    (parsed : Document.ofText text.toList = (d, false)) (value : Json) :
    load (.required (.flat (.scalar .json))) text = .ok (.required (.flat value)) ↔
      Json.read .start d = .ok value := by
  have flat : Value.read .start (.flat (.scalar .json)) d =
      (Json.read .start d).map fun x => .flat (f := .scalar .json) x := by
    rw [Value.read]
    rfl
  rw [load_eq_read parsed, FieldValue.read, FieldValue.readWith, flat]
  constructor
  · intro loaded
    obtain ⟨_, found, held⟩ := Problem.map_eq_ok loaded
    obtain ⟨x, read, rfl⟩ := Problem.map_eq_ok found
    cases held
    exact read
  · intro read
    rw [read]
    rfl

/-- A text that is loaded has one document. -/
theorem exists_of_load {text : String} {t : FieldType} {v : FieldValue t}
    (loaded : t.load text = .ok v) : ∃ d, Document.ofText text.toList = (d, false) := by
  cases parsed : Document.ofText text.toList with
  | mk d trailing =>
      cases trailing with
      | false => exact ⟨d, rfl⟩
      | true =>
          rw [load, parsed] at loaded
          obtain ⟨_, _, loaded⟩ := Problem.bind_eq_ok loaded
          cases loaded

end FieldType

namespace Node

variable {k : Kind}

/-- Nodes that are equal up to the order of maps are equal and have one hash. -/
theorem same_of_matches {n m : Node k} (comparable : n.Each Scalar.Comparable List.Nodup)
    (same : n.Related Scalar.Identical m) : n.same m = true ∧ n.hash = m.hash := by
  have lifted {relate : (s : Scalar) → s.Value → s.Value → Prop}
      (reflexive : ∀ s x, s.Comparable x → relate s x x) : n.Related relate m := by
    refine Related.combine (fun s x y holds one _ => ?_) n m comparable same same
    obtain rfl : x = y := one
    exact reflexive s x holds
  exact ⟨(same_iff_related n m).mpr (lifted Scalar.same_self),
    hash_eq_of_related n m comparable (lifted fun _ _ _ => rfl)⟩

/-- A node is loaded from a text of one document exactly when it is read from the document. -/
theorem load_eq_ok_iff {text : String} {d : Document}
    (parsed : Document.ofText text.toList = (d, false)) (n : Node k) :
    Node.load k text = .ok n ↔ Value.read .start (.node k) d = .ok (.node n) := by
  rw [Node.load, FieldType.load_eq_read parsed, FieldValue.read, FieldValue.readWith]
  constructor
  · intro loaded
    obtain ⟨_, found, held⟩ := Problem.bind_eq_ok loaded
    obtain ⟨v, read, rfl⟩ := Problem.map_eq_ok found
    cases v
    obtain rfl := Except.ok.inj held
    exact read
  · intro read
    rw [read]
    rfl

end Node

/-- A property is a node exactly when the node is read from the document of what is stored. -/
theorem PropertyBag.read_eq_ok_iff {k : Kind} {bag : PropertyBag} {name : String} {value : Json}
    (held : bag.get? name = some value) (m : Node k) :
    bag.read (.required (.node k)) name = .ok (some (.required (.node m))) ↔
      Value.read .stored (.node k) value.document = .ok (.node m) := by
  rw [PropertyBag.read, held]
  simp only [FieldType.ofJson, FieldValue.read, FieldValue.readWith]
  constructor
  · intro found
    cases read : Value.read .stored (.node k) value.document with
    | error problem =>
        rw [read] at found
        cases found
    | ok v =>
        rw [read] at found
        cases found
        rfl
  · intro read
    rw [read]
    rfl

/-- A text that is loaded as a JSON value in which no object has a name twice is loaded as a node
exactly when the value, stored as a property of any host, is converted to one. The two nodes are
equal and have one hash. -/
theorem Node.load_iff_property {k : Kind} {text : String} {value : Json}
    (loaded : FieldType.load (.required (.flat (.scalar .json))) text =
      .ok (.required (.flat value)))
    (distinct : (Document.ofText text.toList).1.Distinct) {bag : PropertyBag} {name : String}
    (held : bag.get? name = some value) :
    ((∃ n, Node.load k text = .ok n) ↔
        ∃ m, bag.read (.required (.node k)) name = .ok (some (.required (.node m)))) ∧
      (∀ n m, Node.load k text = .ok n →
        bag.read (.required (.node k)) name = .ok (some (.required (.node m))) →
        n.same m = true ∧ n.hash = m.hash) ∧
      ∀ {h : Kind} (host : Node h), host.bag? = some bag →
        host.property (.required (.node k)) name = bag.read (.required (.node k)) name := by
  obtain ⟨d, parsed⟩ := FieldType.exists_of_load loaded
  rw [parsed] at distinct
  have read := (FieldType.load_json_eq_ok_iff parsed value).mp loaded
  have stored : d.StoredAs .start value.document := Json.storedAs_of_read distinct read
  have agree := Value.agree_read stored (.node k)
  refine ⟨?_, ?_, ?_⟩
  · simp only [Node.load_eq_ok_iff parsed, PropertyBag.read_eq_ok_iff held]
    constructor
    · rintro ⟨n, read⟩
      obtain ⟨v, read', _⟩ := agree.of_eq_ok read
      match v with
      | .node m => exact ⟨m, read'⟩
    · rintro ⟨m, read⟩
      obtain ⟨v, read'⟩ := agree.exists_ok_iff.mpr ⟨_, read⟩
      match v with
      | .node n => exact ⟨n, read'⟩
  · intro n m first second
    have comparable := n.comparable_of_finite (fits_of_load first).1
    rw [Node.load_eq_ok_iff parsed] at first
    rw [PropertyBag.read_eq_ok_iff held] at second
    obtain ⟨v, read, same⟩ := agree.of_eq_ok first
    rw [second] at read
    obtain rfl := Except.ok.inj read
    exact same_of_matches comparable same
  · intro h host present
    rw [property, present]

namespace Node

/-- A message in plain text and in Markdown. -/
def formattedMessage : Node .message :=
  ((default .message).set Message.text (some "plain")).set Message.markdown (some "*formatted*")

/-- What the text of the message is stored as, with the names in another order. -/
def formattedValue : Json :=
  .ofMembers [("text", .string "plain"), ("markdown", .string "*formatted*")]

/-- The message that was loaded from its text comes back as a property, from its stored value. -/
theorem load_iff_property_formattedMessage :
    Node.load .message formattedMessage.text = .ok formattedMessage ∧
      ∃ m, PropertyBag.read ⟨[("note", formattedValue)]⟩ (.required (.node .message)) "note" =
          .ok (some (.required (.node m))) ∧
        formattedMessage.same m = true ∧ formattedMessage.hash = m.hash := by
  have written : formattedMessage.document =
      .object [(Literal.ofString "text", Document.string "plain"),
        (Literal.ofString "markdown", Document.string "*formatted*")] .closed := rfl
  have loaded : Node.load .message formattedMessage.text = .ok formattedMessage := by
    have nothing : formattedMessage.Each (fun _ _ => True) (fun _ => True) :=
      ⟨trivial, trivial, trivial, trivial, trivial, trivial⟩
    have shallow : formattedMessage.document.nesting ≤ 127 := by
      rw [written]
      decide
    rw [load_text_eq_within formattedMessage nothing nothing nothing nothing]
    exact Source.within_of_le shallow _
  have stored : FieldType.load (.required (.flat (.scalar .json))) formattedMessage.text =
      .ok (.required (.flat formattedValue)) := by
    refine (FieldType.load_json_eq_ok_iff formattedMessage.ofText_text _).mpr ?_
    rw [written]
    simp only [Json.read, Json.readMembers, Document.string, Literal.read_ofString]
    rfl
  have distinct : (Document.ofText formattedMessage.text.toList).1.Distinct := by
    rw [ofText_text, written]
    refine ⟨?_, trivial, trivial, trivial⟩
    simp [Document.names, Literal.read_ofString]
  have held : Dict.get? ⟨[("note", formattedValue)]⟩ "note" = some formattedValue := rfl
  have result := load_iff_property (k := .message) stored distinct held
  obtain ⟨m, found⟩ := result.1.mp ⟨_, loaded⟩
  exact ⟨loaded, m, found, result.2.1 _ m loaded found⟩

end Node
end Sarif
