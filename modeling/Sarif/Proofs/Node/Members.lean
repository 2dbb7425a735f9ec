import Mathlib.Logic.Relation
import Sarif.Proofs.Node.Agreement
import Sarif.Proofs.Sentinel

/-!
# Members that do not matter

A node that is read from an object does not depend on the order of the members, nor on members of
names that its kind does not know, nor on members that say what a field has when it is not given:
null for an optional field, `-1` for a sentinel. A `Document.MemberEdit` is one such change of the
members. It may change which fields are known when the last member has been read, but not the
record that is made of them (`Draft.agree_readMembers_of_edit`), so neither do any number of such
changes. Two members for one field are too many, wherever they stand.
-/

namespace Sarif

namespace Document

/-- One change of the members of an object that does not matter to a reader of nodes of a kind. -/
inductive MemberEdit (k : Kind) : List (Literal × Document) → List (Literal × Document) → Prop where
  /-- The members come in another order. -/
  | reordered {members others : List (Literal × Document)} (perm : members.Perm others) :
      MemberEdit k members others
  /-- A member of an unknown name is there too, with any value that is well-formed. -/
  | unknown {name : Literal} {s : String} {d : Document} (before after : List (Literal × Document))
      (named : name.read = .ok s) (strange : s ∉ k.fields.map Field.name)
      (wellFormed : d.skip = none) : MemberEdit k (before ++ after) (before ++ (name, d) :: after)
  /-- Null is there for an optional field that is not given otherwise. -/
  | absent {name : Literal} {f : Field} {t : Ty} (before after : List (Literal × Document))
      (named : name.read = .ok f.name) (known : f ∈ k.fields) (optional : f.type = .optional t)
      (missing : .ok f.name ∉ names (before ++ after)) :
      MemberEdit k (before ++ after) (before ++ (name, .null) :: after)
  /-- `-1` is there for a sentinel that is not given otherwise. -/
  | unset {name : Literal} {f : Field} (before after : List (Literal × Document))
      (named : name.read = .ok f.name) (known : f ∈ k.fields)
      (sentinel : f.type = .required .sentinel) (missing : .ok f.name ∉ names (before ++ after)) :
      MemberEdit k (before ++ after) (before ++ (name, Scalar.integerDocument (-1)) :: after)

end Document

namespace Draft

variable {fs : List Field} {source : Source}

/-! ## Members that are not there, and members that are there twice -/

/-- What is known of a field does not change while no member has its name. -/
theorem get_of_readMembers {f : Field} (place : Place fs f) {members : List (Literal × Document)}
    (missing : .ok f.name ∉ Document.names members) {draft next : Draft fs}
    (success : readMembers source draft members = .ok next) : next.get place = draft.get place := by
  induction members generalizing draft with
  | nil =>
      rw [readMembers] at success
      exact congrArg (get · place) (Except.ok.inj success).symm
  | cons member rest inductionHypothesis =>
      obtain ⟨other, later⟩ := List.ne_and_not_mem_of_not_mem_cons missing
      rw [readMembers_eq_bind] at success
      obtain ⟨between, first, success⟩ := Problem.bind_eq_ok success
      rw [inductionHypothesis later success]
      rcases readMember_cases fs source member with fails | skipped | ⟨g, q, w, named, _, sets⟩
      · exact absurd first (fails draft between)
      · rw [skipped] at first
        exact congrArg (get · place) (Except.ok.inj first).symm
      · rw [sets] at first
        split at first
        · cases first
        · obtain rfl := Except.ok.inj first
          exact get_set_of_ne draft q w place fun same => other (same ▸ named.symm)

/-- A field that is set to its default is the same in the record as one that is not known. -/
theorem finish_set_default : {fs : List Field} → {f : Field} → (draft : Draft fs) →
    (place : Place fs f) → draft.get place = none →
    (draft.set place (FieldValue.default f.type)).finish = draft.finish
  | _, _, cons _ _, .here, unknown => by
      obtain rfl := unknown
      rfl
  | _, _, cons v rest, .later place, unknown =>
      congrArg (Record.cons _) (finish_set_default rest place unknown)

/-- A member for a field that is known is refused. -/
theorem readMember_ne_ok {f : Field} {place : Place fs f}
    (found : Place.find? f.name fs = some ⟨f, place⟩) {member : Literal × Document}
    (named : member.1.read = .ok f.name) {draft : Draft fs}
    (given : (draft.get place).isSome = true) (next : Draft fs) :
    readMember source draft member ≠ .ok next := by
  intro success
  simp only [readMember, named, Problem.ok_bind, found, given, if_true] at success
  cases success

/-- A member for a field leaves the field known. -/
theorem isSome_get_of_readMember {f : Field} {place : Place fs f}
    (found : Place.find? f.name fs = some ⟨f, place⟩) {member : Literal × Document}
    (named : member.1.read = .ok f.name) {draft next : Draft fs}
    (success : readMember source draft member = .ok next) : (next.get place).isSome = true := by
  simp only [readMember, named, Problem.ok_bind, found] at success
  split at success
  · cases success
  · obtain ⟨v, _, set⟩ := Problem.bind_eq_ok success
    obtain rfl := Except.ok.inj set
    rw [get_set]
    rfl

/-- Two members for one field are too many, wherever they stand. -/
theorem readMembers_ne_ok_of_repeated {f : Field} {place : Place fs f}
    (found : Place.find? f.name fs = some ⟨f, place⟩) {one other : Literal × Document}
    (named : one.1.read = .ok f.name) (named' : other.1.read = .ok f.name)
    (before between after : List (Literal × Document)) (draft next : Draft fs) :
    readMembers source draft (before ++ one :: (between ++ other :: after)) ≠ .ok next := by
  intro success
  have perm : (before ++ one :: (between ++ other :: after)).Perm
      (one :: other :: (before ++ (between ++ after))) := by
    refine List.perm_middle.trans (.cons one ?_)
    rw [← List.append_assoc, ← List.append_assoc]
    exact List.perm_middle
  obtain ⟨_, moved, _⟩ := (agree_readMembers_of_perm perm draft).of_eq_ok success
  rw [readMembers_eq_bind] at moved
  obtain ⟨between, first, moved⟩ := Problem.bind_eq_ok moved
  rw [readMembers_eq_bind] at moved
  obtain ⟨_, second, _⟩ := Problem.bind_eq_ok moved
  exact readMember_ne_ok found named' (isSome_get_of_readMember found named first) _ second

/-! ## One change -/

/-- Drafts of which the same record is made. -/
abbrev SameFinish (draft draft' : Draft fs) : Prop :=
  draft.finish = draft'.finish

/-- A member that is skipped may be there or not. -/
theorem agree_readMembers_of_skipped {member : Literal × Document}
    (skipped : ∀ draft : Draft fs, readMember source draft member = .ok draft)
    (before after : List (Literal × Document)) (draft : Draft fs) :
    Agree Eq (readMembers source draft (before ++ after))
      (readMembers source draft (before ++ member :: after)) := by
  rw [readMembers_append, readMembers_append]
  refine (Agree.refl _).bind fun next _ same => ?_
  rw [← same, readMembers_eq_bind, skipped]
  exact .refl _

/-- A member that gives a field its default may be there or not, if no other member gives the
field. -/
theorem agree_readMembers_of_default {k : Kind} {f : Field} (known : f ∈ k.fields)
    {member : Literal × Document} (named : member.1.read = .ok f.name)
    (read : FieldValue.readWith (fun t => Value.read source t member.2) member.2 f.type =
      .ok (FieldValue.default f.type)) (before after : List (Literal × Document))
    (missing : .ok f.name ∉ Document.names (before ++ after)) :
    Agree SameFinish (readMembers source (blank k.fields) (before ++ after))
      (readMembers source (blank k.fields) (before ++ member :: after)) := by
  obtain ⟨place, found⟩ := k.exists_find? known
  -- Read last, the member finds its field as the blank draft has it.
  have perm : ((before ++ after) ++ [member]).Perm (before ++ member :: after) :=
    (List.perm_append_singleton member _).trans List.perm_middle.symm
  have last : Agree SameFinish (readMembers source (blank k.fields) (before ++ after))
      (readMembers source (blank k.fields) ((before ++ after) ++ [member])) := by
    rw [readMembers_append _ (before ++ after)]
    cases rest : readMembers source (blank k.fields) (before ++ after) with
    | error problem => trivial
    | ok draft =>
        have unknown : draft.get place = none :=
          (get_of_readMembers place missing rest).trans (get_blank place)
        have set : readMembers source draft [member] =
            .ok (draft.set place (FieldValue.default f.type)) := by
          rw [readMembers_eq_bind, readMember, named]
          simp only [Problem.ok_bind, found, unknown, Option.isSome_none, Bool.false_eq_true,
            if_false, read, readMembers]
          rfl
        rw [Problem.ok_bind, set]
        exact (finish_set_default draft place unknown).symm
  have moved : Agree Eq (readMembers source (blank k.fields) ((before ++ after) ++ [member]))
      (readMembers source (blank k.fields) (before ++ member :: after)) :=
    agree_readMembers_of_perm perm _
  refine last.trans ?_ moved
  rintro _ _ _ same rfl
  exact same

/-- A change that does not matter leaves the record as it is. -/
theorem agree_readMembers_of_edit {k : Kind} {members others : List (Literal × Document)}
    (edit : Document.MemberEdit k members others) (source : Source) :
    Agree SameFinish (readMembers source (blank k.fields) members)
      (readMembers source (blank k.fields) others) := by
  have whole {one other : Except Problem (Draft k.fields)} (agree : Agree Eq one other) :
      Agree SameFinish one other :=
    agree.imp fun _ _ _ _ same => congrArg finish same
  cases edit with
  | reordered perm => exact whole (agree_readMembers_of_perm perm _)
  | @unknown name s d before after named strange wellFormed =>
      refine whole (agree_readMembers_of_skipped (fun draft => ?_) before after _)
      have missing : Place.find? s k.fields = none := Place.find?_eq_none strange
      simp only [readMember, named, Problem.ok_bind, missing, wellFormed]
      rfl
  | absent before after named known optional missing =>
      refine agree_readMembers_of_default known named ?_ before after missing
      rw [optional]
      rfl
  | unset before after named known sentinel missing =>
      refine agree_readMembers_of_default known named ?_ before after missing
      have read : Sentinel.read source (Scalar.integerDocument (-1)) = .ok .unset :=
        Sentinel.read_document source Sentinel.wellFormed_unset
      rw [sentinel, FieldValue.readWith, Value.read, Flat.read, Scalar.read, read]
      rfl

end Draft

namespace Node

open Document (MemberEdit)

variable {k : Kind}

/-- Any number of changes that do not matter, made or undone, leave what is read as it is. -/
theorem agree_read_of_edits {members others : List (Literal × Document)}
    (edits : Relation.EqvGen (MemberEdit k) members others) (source : Source) (ending : Ending) :
    Agree Eq (Value.read source (.node k) (.object members ending))
      (Value.read source (.node k) (.object others ending)) := by
  induction edits with
  | rel members others edit =>
      rw [Value.read, Value.read]
      refine (Agree.refl _).bind fun inner _ same => same ▸ ?_
      refine (Draft.agree_readMembers_of_edit edit inner).bind fun draft draft' finished => ?_
      refine (Agree.refl _).bind fun _ _ _ => ?_
      exact congrArg (fun record => Value.node (.mk record)) finished
  | refl => exact .refl _
  | symm _ _ _ inductionHypothesis => exact inductionHypothesis.symm
  | trans _ _ _ _ _ first second =>
      exact first.trans (fun _ _ _ one other => one.trans other) second

/-- An object that is loaded as a node is loaded as the same node with its members in another
order, with members of unknown names added or taken out, and with null for an optional field or
`-1` for a sentinel added or taken out where the field is not given otherwise. An object with two
members for one field is not loaded. -/
theorem load_object (k : Kind) :
    (∀ text other members others,
      Document.ofText text.toList = (.object members .closed, false) →
      Document.ofText other.toList = (.object others .closed, false) →
      Relation.EqvGen (MemberEdit k) members others →
      ∀ n, Node.load k text = .ok n → Node.load k other = .ok n) ∧
    ∀ text before (one : Literal × Document) between (again : Literal × Document)
      after ending trailing,
      Document.ofText text.toList =
        (.object (before ++ one :: (between ++ again :: after)) ending, trailing) →
      ∀ f ∈ k.fields, one.1.read = .ok f.name → again.1.read = .ok f.name →
        ∀ n, Node.load k text ≠ .ok n := by
  constructor
  · intro text other members others parsed parsed' edits n loaded
    rw [load_eq_ok_iff parsed] at loaded
    obtain ⟨_, read, rfl⟩ := (agree_read_of_edits edits .start .closed).of_eq_ok loaded
    exact (load_eq_ok_iff parsed' n).mpr read
  · intro text before one between again after ending trailing parsed f known named named' n loaded
    obtain ⟨place, found⟩ := k.exists_find? known
    obtain ⟨_, read⟩ := of_load parsed loaded
    rw [Value.read] at read
    obtain ⟨_, inner, draft, _, come, _⟩ := Source.of_enter_bind read
    exact Draft.readMembers_ne_ok_of_repeated found named named' before between after _ _ come

/-- The one member that a location with a URI is written with. -/
def uriMembers : List (Literal × Document) :=
  [(.ofString "uri", .string "a.c")]

/-- The same member after others that do not matter. -/
def looseMembers : List (Literal × Document) :=
  [(.ofString "index", Scalar.integerDocument (-1)), (.ofString "note", .array [.null] none),
    (.ofString "uriBaseId", .null)] ++ uriMembers

/-- Each of the other members may be added, and the last two be exchanged. -/
theorem eqvGen_looseMembers :
    Relation.EqvGen (MemberEdit .artifactLocation) uriMembers looseMembers := by
  refine .trans _ _ _ (.rel _ _ (.absent uriMembers []
    (f := ⟨"uriBaseId", .optional .text⟩) (Literal.read_ofString _) (by decide) rfl ?_)) ?_
  · simp [Document.names, uriMembers, Literal.read_ofString]
  refine .trans _ _ _ (.rel _ _ (.reordered List.perm_append_comm)) ?_
  refine .trans _ _ _ (.rel _ _ (.unknown [] _ (Literal.read_ofString "note")
    (by decide) (d := .array [.null] none) rfl)) ?_
  refine .rel _ _ (.unset [] _
    (f := ⟨"index", .required .sentinel⟩) (Literal.read_ofString _) (by decide) rfl ?_)
  simp [Document.names, uriMembers, Literal.read_ofString]

/-- Such a location is loaded whatever stands beside its URI, and not loaded with the URI given
twice. -/
theorem load_object_looseMembers :
    Node.load .artifactLocation (Document.object looseMembers .closed).render =
        .ok (ArtifactLocation.ofUri "a.c") ∧
      ∀ n, Node.load .artifactLocation
        (Document.object (uriMembers ++ [(.ofString "uri", .null)]) .closed).render ≠ .ok n := by
  have parsed {members : List (Literal × Document)} (sound : Document.SoundMembers members) :
      Document.ofText (Document.object members .closed).render.toList =
        (.object members .closed, false) :=
    Document.ofText_render ⟨rfl, sound⟩
  have soundUri : Document.SoundMembers uriMembers :=
    ⟨Literal.ofString_sound _, Literal.ofString_sound _, trivial⟩
  obtain ⟨moved, twice⟩ := load_object .artifactLocation
  constructor
  · refine moved _ _ _ _ (parsed soundUri) (parsed ?_) eqvGen_looseMembers _ (load_text_ofUri "a.c")
    exact ⟨Literal.ofString_sound _, List.forall_mem_nil _, Literal.ofString_sound _,
      ⟨rfl, trivial, trivial⟩, Literal.ofString_sound _, trivial, soundUri⟩
  · refine twice _ [] _ [] _ [] .closed false (parsed ?_) ⟨"uri", .optional .text⟩ (by decide)
      (Literal.read_ofString _) (Literal.read_ofString _)
    exact ⟨Literal.ofString_sound _, Literal.ofString_sound _, Literal.ofString_sound _, trivial,
      trivial⟩

end Node
end Sarif
