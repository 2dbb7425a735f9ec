import Sarif.Build
import Sarif.Proofs.Reading.Context
import Sarif.Proofs.Text.Composition

/-!
# Nodes in positional form

A node may be given by an array of the values of its first fields. Such an array is read exactly
as the object that has these values under the names of the fields (`Node.read_positional`): each
value is read as the same field, the fields that are left have the same defaults, and the same
problem comes first. An array with more values than fields is never read. Both hold wherever in a
document the node is read.
-/

namespace Sarif

namespace Document

/-- Items and the members that give them the names of the first fields of a list, in their order. -/
inductive Named : List Field → List Document → List (Literal × Document) → Prop where
  | nil {fs : List Field} : Named fs [] []
  | cons {f : Field} {fs : List Field} {name : Literal} {d : Document} {items : List Document}
      {members : List (Literal × Document)} (named : name.read = .ok f.name)
      (rest : Named fs items members) : Named (f :: fs) (d :: items) ((name, d) :: members)

/-- The members have names of fields of the list. -/
theorem Named.exists_name {fs : List Field} {items : List Document}
    {members : List (Literal × Document)} (named : Named fs items members) :
    ∀ member ∈ members, ∃ name ∈ fs.map Field.name, member.1.read = .ok name := by
  induction named with
  | nil => exact fun _ inside => nomatch inside
  | cons read _ inductionHypothesis =>
      intro member inside
      rcases List.mem_cons.mp inside with rfl | later
      · exact ⟨_, List.mem_cons_self, read⟩
      · obtain ⟨name, known, read⟩ := inductionHypothesis member later
        exact ⟨name, List.mem_cons_of_mem _ known, read⟩

end Document

open Document (Context Named)

/-! ## Reading by position and by name -/

/-- Items in the order of the fields are read as the members of their names. -/
theorem Draft.readItems_eq_readMembers {fs : List Field} {items : List Document}
    {members : List (Literal × Document)} (named : Named fs items members)
    (distinct : (fs.map Field.name).Nodup) (source : Source) (total : Nat) :
    readItems source total fs items = readMembers source (blank fs) members := by
  induction named with
  | nil => rw [readItems, readMembers]
  | @cons f fs name d items members read rest inductionHypothesis =>
      obtain ⟨fresh, tail⟩ := List.nodup_cons.mp distinct
      have found : Place.find? f.name (f :: fs) = some ⟨f, .here⟩ := if_pos rfl
      have others : ∀ member ∈ members, ∃ name, member.1.read = .ok name ∧ name ≠ f.name := by
        intro member inside
        obtain ⟨name, known, read⟩ := rest.exists_name member inside
        exact ⟨name, read, fun same => fresh (same ▸ known)⟩
      rw [readItems, inductionHypothesis tail, readMembers_known read found rfl]
      refine congrArg _ (funext fun v => ?_)
      rw [blank, set, readMembers_cons _ others]
      cases readMembers source (blank fs) members <;> rfl

/-- More items than fields are too many. -/
theorem Draft.readItems_ne_ok {fs : List Field} {items : List Document}
    (tooMany : fs.length < items.length) (source : Source) (total : Nat) (draft : Draft fs) :
    readItems source total fs items ≠ .ok draft := by
  induction fs generalizing items with
  | nil =>
      cases items with
      | nil => cases tooMany
      | cons item rest =>
          rw [readItems]
          exact nofun
  | cons f fs inductionHypothesis =>
      cases items with
      | nil => cases tooMany
      | cons item rest =>
          rw [readItems]
          intro success
          obtain ⟨_, _, success⟩ := Problem.bind_eq_ok success
          obtain ⟨draft, later, _⟩ := Problem.bind_eq_ok success
          exact inductionHypothesis (Nat.lt_of_succ_lt_succ tooMany) draft later

namespace Node

variable {k : Kind}

/-- An array of the values of the first fields is read as the object of the named values. -/
theorem read_positional {items : List Document} {members : List (Literal × Document)}
    (named : Named k.fields items members) (source : Source) :
    Value.read source (.node k) (.array items none) =
      Value.read source (.node k) (.object members .closed) := by
  rw [Value.read, Value.read]
  refine congrArg _ (funext fun inner => ?_)
  rw [Draft.readItems_eq_readMembers named k.fields_distinct]
  rfl

/-- An array of more values than fields is not read. -/
theorem read_positional_ne_ok {items : List Document} (tooMany : k.fields.length < items.length)
    (defect : Option Defect) (source : Source) (v : Value (.node k)) :
    Value.read source (.node k) (.array items defect) ≠ .ok v := by
  intro success
  rw [Value.read] at success
  obtain ⟨_, inner, draft, _, come, _⟩ := Source.of_enter_bind success
  exact Draft.readItems_ne_ok tooMany inner _ draft come

/-- Texts of documents that are read alike are loaded as the same node. -/
theorem load_iff_of_agree {text other : String} {d e : Document}
    (parsed : Document.ofText text.toList = (d, false))
    (parsed' : Document.ofText other.toList = (e, false))
    (agree : Agree Eq (Value.read .start (.node k) d) (Value.read .start (.node k) e))
    (n : Node k) :
    Node.load k text = .ok n ↔ Node.load k other = .ok n := by
  rw [load_eq_ok_iff parsed, load_eq_ok_iff parsed']
  constructor
  · intro read
    obtain ⟨_, read', rfl⟩ := agree.of_eq_ok read
    exact read'
  · intro read
    obtain ⟨_, read', rfl⟩ := agree.symm.of_eq_ok read
    exact read'

end Node

/-! ## Texts of nodes in the two forms -/

namespace Document

/-- A text that is one JSON value. -/
def IsValueText (text : String) : Prop :=
  ∃ d, WholeText text.toList d

/-- The text of an array of values. -/
def arrayText (values : List String) : String :=
  "[" ++ ",".intercalate values ++ "]"

/-- The text of an object of named values. -/
def objectText (members : List (String × String)) : String :=
  "\x7b" ++ ",".intercalate (members.map fun member =>
    String.ofList (memberText (.ofString member.1) member.2.toList)) ++ "\x7d"

/-- The text of an array of value texts is that of the array of their documents. -/
theorem wholeText_arrayText {values : List String} {items : List Document}
    (each : List.Forall₂ WholeText (values.map String.toList) items) :
    WholeText (arrayText values).toList (.array items none) := by
  have shape : (arrayText values).toList =
      '[' :: (commaSeparated (values.map String.toList) ++ [']']) := by
    simp [arrayText, commaSeparated, String.toList_intercalate]
  rw [shape]
  exact .array each

/-- The text of an object of value texts is that of the object of their documents. -/
theorem wholeText_objectText {pairs : List (String × String)} {members : List (Literal × Document)}
    (each : List.Forall₂ WholeMember
      (pairs.map fun pair => memberText (.ofString pair.1) pair.2.toList) members) :
    WholeText (objectText pairs).toList (.object members .closed) := by
  have shape : (objectText pairs).toList = '\x7b' :: (commaSeparated
      (pairs.map fun pair => memberText (.ofString pair.1) pair.2.toList) ++ ['\x7d']) := by
    simp [objectText, commaSeparated, String.toList_intercalate, Function.comp_def]
  rw [shape]
  exact .object each

/-- Value texts have documents. -/
theorem exists_items {values : List String} (each : ∀ text ∈ values, IsValueText text) :
    ∃ items, List.Forall₂ WholeText (values.map String.toList) items := by
  induction values with
  | nil => exact ⟨[], .nil⟩
  | cons text values inductionHypothesis =>
      obtain ⟨head, tail⟩ := List.forall_mem_cons.mp each
      obtain ⟨d, isWhole⟩ := head
      obtain ⟨items, rest⟩ := inductionHypothesis tail
      exact ⟨d :: items, .cons isWhole rest⟩

/-- Value texts for the first fields have documents, and these under the names of the fields are the
members that the texts under the names have. -/
theorem exists_named {fs : List Field} {values : List String}
    (each : ∀ text ∈ values, IsValueText text) (few : values.length ≤ fs.length) :
    ∃ items members, List.Forall₂ WholeText (values.map String.toList) items ∧
      List.Forall₂ WholeMember (((fs.map Field.name).zip values).map fun pair =>
        memberText (.ofString pair.1) pair.2.toList) members ∧
      Named fs items members := by
  induction values generalizing fs with
  | nil =>
      rw [List.zip_nil_right]
      exact ⟨[], [], .nil, .nil, .nil⟩
  | cons text values inductionHypothesis =>
      cases fs with
      | nil => cases few
      | cons f fs =>
          obtain ⟨head, tail⟩ := List.forall_mem_cons.mp each
          obtain ⟨d, isWhole⟩ := head
          obtain ⟨items, members, rest, named, given⟩ :=
            inductionHypothesis tail (Nat.le_of_succ_le_succ few)
          have member : WholeMember (memberText (.ofString f.name) text.toList)
              (.ofString f.name, d) :=
            ⟨Literal.ofString_sound f.name, text.toList, rfl, isWhole⟩
          exact ⟨d :: items, (.ofString f.name, d) :: members, .cons isWhole rest,
            .cons member named, .cons (Literal.read_ofString f.name) given⟩

end Document

namespace Node

open Document (IsValueText arrayText objectText)

/-- An array of value texts is loaded as a node exactly when the object is that gives them the
names of the first fields, and as the same node. With more values than fields it is never loaded.
Within a text that is loaded as some other node, a node may be given in either form with the same
result, and too many values for it keep the text from being loaded. -/
theorem load_positional (k : Kind) :
    (∀ values : List String, (∀ text ∈ values, IsValueText text) →
      (values.length ≤ k.fields.length → ∀ n,
        Node.load k (arrayText values) = .ok n ↔
          Node.load k (objectText ((k.fields.map Field.name).zip values)) = .ok n) ∧
      (k.fields.length < values.length → ∀ n, Node.load k (arrayText values) ≠ .ok n)) ∧
    ∀ root fill, Context (.node root) (.node k) fill →
      (∀ text other items members, Named k.fields items members →
        Document.ofText text.toList = (fill (.array items none), false) →
        Document.ofText other.toList = (fill (.object members .closed), false) →
        ∀ n, Node.load root text = .ok n ↔ Node.load root other = .ok n) ∧
      ∀ text items defect trailing, k.fields.length < items.length →
        Document.ofText text.toList = (fill (.array items defect), trailing) →
        ∀ n, Node.load root text ≠ .ok n := by
  have alike {root : Kind} {fill : Document → Document}
      (context : Context (.node root) (.node k) fill)
      {items : List Document} {members : List (Literal × Document)}
      (named : Named k.fields items members) :
      Agree Eq (Value.read .start (.node root) (fill (.array items none)))
        (Value.read .start (.node root) (fill (.object members .closed))) :=
    context.agree_read (d := .array items none) (e := .object members .closed) trivial trivial
      (fun source => read_positional named source ▸ .refl _) .start
  refine ⟨fun values each => ⟨fun few n => ?_, fun tooMany n loaded => ?_⟩, ?_⟩
  · obtain ⟨items, members, texts, memberTexts, named⟩ := Document.exists_named each few
    exact load_iff_of_agree (Document.wholeText_arrayText texts).parsed
      (Document.wholeText_objectText memberTexts).parsed (alike .here named) n
  · obtain ⟨items, texts⟩ := Document.exists_items each
    have length := texts.length_eq
    rw [List.length_map] at length
    exact read_positional_ne_ok (length ▸ tooMany) none .start _
      (of_load (Document.wholeText_arrayText texts).parsed loaded).2
  · intro root fill context
    refine ⟨fun text other items members named parsed parsed' n => ?_,
      fun text items defect trailing tooMany parsed n loaded => ?_⟩
    · exact load_iff_of_agree parsed parsed' (alike context named) n
    · have refused := context.read_ne_ok (d := .array items defect) trivial
        (read_positional_ne_ok tooMany defect)
      exact refused .start _ (of_load parsed loaded).2

/-- A run with one artifact, whose location is `d`. -/
def runWithLocation (d : Document) : Document :=
  .object [(.ofString "artifacts",
    .array [.object [(.ofString "location", d)] .closed] none)] .closed

/-- A value for each field of a location. -/
def locationValues : List String :=
  ["\"a.c\"", " null ", "-1", " null ", " null "]

/-- A value for each field of a location, and one more. -/
def tooManyItems : List Document :=
  [.string "a.c", .null, Scalar.integerDocument (-1), .null, .null, .null]

/-- A location is loaded from its URI in brackets, at the top and in a run, but not from a value for
each of its fields and one more. -/
theorem load_positional_location :
    Node.load .artifactLocation (arrayText ["\"a.c\""]) = .ok (ArtifactLocation.ofUri "a.c") ∧
      (∀ n, Node.load .artifactLocation (arrayText (locationValues ++ [" null "])) ≠ .ok n) ∧
      (∀ n, Node.load .run (runWithLocation (.array [.string "a.c"] none)).render = .ok n ↔
        Node.load .run
          (runWithLocation (.object [(.ofString "uri", .string "a.c")] .closed)).render = .ok n) ∧
      ∀ n, Node.load .run (runWithLocation (.array tooManyItems none)).render ≠ .ok n := by
  have uri : IsValueText "\"a.c\"" := ⟨.string "a.c", rfl, rfl⟩
  have null : IsValueText " null " := ⟨.null, rfl, rfl⟩
  have unset : IsValueText "-1" := ⟨Scalar.integerDocument (-1), rfl, rfl⟩
  have context : Context (.node .run) (.node .artifactLocation) runWithLocation :=
    .member (f := ⟨"artifacts", .optional (.nodes .artifact)⟩) [] [] .closed (by decide)
      (Literal.read_ofString _) <|
    .slot [] [] none <|
    .member (f := ⟨"location", .optional (.node .artifactLocation)⟩) [] [] .closed (by decide)
      (Literal.read_ofString _) .here
  have parsed {d : Document} (sound : d.Sound) :
      Document.ofText (runWithLocation d).render.toList = (runWithLocation d, false) :=
    Document.ofText_render ⟨rfl, Literal.ofString_sound _,
      ⟨rfl, ⟨rfl, Literal.ofString_sound _, sound, trivial⟩, trivial⟩, trivial⟩
  obtain ⟨atTop, within⟩ := load_positional .artifactLocation
  obtain ⟨alike, refused⟩ := within _ _ context
  refine ⟨?_, ?_, ?_, ?_⟩
  · refine ((atTop _ ?_).1 (by decide) _).mpr (load_text_ofUri "a.c")
    exact List.forall_mem_singleton.mpr uri
  · refine (atTop _ ?_).2 (by decide)
    simp only [locationValues, List.cons_append, List.nil_append, List.forall_mem_cons]
    exact ⟨uri, null, unset, null, null, null, List.forall_mem_nil _⟩
  · refine alike _ _ _ _ (.cons (Literal.read_ofString _) .nil) (parsed ?_) (parsed ?_)
    · exact ⟨rfl, Literal.ofString_sound _, trivial⟩
    · exact ⟨rfl, Literal.ofString_sound _, Literal.ofString_sound _, trivial⟩
  · refine refused _ _ none false (by decide) (parsed ?_)
    exact ⟨rfl, Literal.ofString_sound _, trivial, List.forall_mem_nil _, trivial, trivial, trivial,
      trivial⟩

end Node
end Sarif
