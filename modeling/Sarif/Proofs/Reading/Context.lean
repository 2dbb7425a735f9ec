import Sarif.Proofs.Node.Agreement

/-!
# Documents with a gap

A `Document.Context` is a document with a gap from which a value is really read: the gap lies in a
field of a node in either of its forms, in a slot of a list or in an entry of a map, at any depth,
and never in what a reader skips or keeps as a JSON value. How the whole is read depends on the
gap in one way only (`Document.Context.readsThrough`): reading fails before it gets there, or it
reads what is in the gap and goes on with the value. So what is refused in the gap is refused in
the whole, and documents that are read alike in the gap are read alike in the whole.
-/

namespace Sarif

/-! ## Fields that are not null -/

/-- The type of the values that a field may hold. -/
def FieldType.held : FieldType → Ty
  | .required t => t
  | .optional t => t

/-- The field that holds a value. -/
def FieldValue.hold : (t : FieldType) → Value t.held → FieldValue t
  | .required _, v => required v
  | .optional _, v => present v

/-- A field is read as a value of its type when its document is not null. -/
theorem FieldValue.readWith_eq_map {read : (t : Ty) → Except Problem (Value t)} {d : Document}
    (shown : d.Shown) (t : FieldType) : readWith read d t = (read t.held).map (hold t) := by
  cases t with
  | required t => rfl
  | optional t => exact readWith_of_shown shown t

namespace Document

/-! ## Contexts -/

/-- A document with a gap: read as a value of type `whole`, it has a value of type `part` read from
whatever document is put in the gap. -/
inductive Context : (whole part : Ty) → (Document → Document) → Prop where
  | here {t : Ty} : Context t t id
  /-- In a member of a node. -/
  | member {k : Kind} {f : Field} {part : Ty} {fill : Document → Document} {name : Literal}
      (before after : List (Literal × Document)) (ending : Ending) (known : f ∈ k.fields)
      (named : name.read = .ok f.name) (inner : Context f.type.held part fill) :
      Context (.node k) part fun d => .object (before ++ (name, fill d) :: after) ending
  /-- In an item of a node in positional form. -/
  | item {k : Kind} {f : Field} {part : Ty} {fill : Document → Document}
      (before after : List Document) (defect : Option Defect)
      (placed : k.fields[before.length]? = some f) (inner : Context f.type.held part fill) :
      Context (.node k) part fun d => .array (before ++ fill d :: after) defect
  /-- In a slot of a list of nodes. -/
  | slot {k : Kind} {part : Ty} {fill : Document → Document} (before after : List Document)
      (defect : Option Defect) (inner : Context (.node k) part fill) :
      Context (.nodes k) part fun d => .array (before ++ fill d :: after) defect
  /-- In an entry of a map of nodes. -/
  | entry {k : Kind} {part : Ty} {fill : Document → Document} {name : Literal}
      (before after : List (Literal × Document)) (ending : Ending)
      (inner : Context (.node k) part fill) :
      Context (.nodeMap k) part fun d => .object (before ++ (name, fill d) :: after) ending

/-- What is not null does not make the whole null. -/
theorem Context.shown {whole part : Ty} {fill : Document → Document}
    (context : Context whole part fill) {d : Document} (shown : d.Shown) : (fill d).Shown := by
  cases context with
  | here => exact shown
  | _ => trivial

/-! ## Reading up to the gap, and on from it -/

/-- A reader that fails whatever is in the gap, or reads a value from it and goes on with that. -/
def ReadsThrough {α : Type} (part : Ty) (read : Document → Except Problem α) : Prop :=
  (∃ problem, ∀ d : Document, d.Shown → read d = .error problem) ∨
    ∃ (inner : Source) (next : Value part → Except Problem α),
      ∀ d : Document, d.Shown → read d = (Value.read inner part d >>= next)

namespace ReadsThrough

variable {α β : Type} {part : Ty} {read : Document → Except Problem α}

/-- It does not matter how a reader does with what is null. -/
theorem congr {other : Document → Except Problem α} (reads : ReadsThrough part other)
    (equal : ∀ d : Document, d.Shown → read d = other d) : ReadsThrough part read := by
  rcases reads with ⟨problem, fails⟩ | ⟨inner, next, goesOn⟩
  · exact .inl ⟨problem, fun d shown => (equal d shown).trans (fails d shown)⟩
  · exact .inr ⟨inner, next, fun d shown => (equal d shown).trans (goesOn d shown)⟩

/-- A reader may be followed by others. -/
theorem bind (reads : ReadsThrough part read) (rest : α → Except Problem β) :
    ReadsThrough part fun d => read d >>= rest := by
  rcases reads with ⟨problem, fails⟩ | ⟨inner, next, goesOn⟩
  · refine .inl ⟨problem, fun d shown => ?_⟩
    simp only [fails d shown]
    rfl
  · refine .inr ⟨inner, fun v => next v >>= rest, fun d shown => ?_⟩
    simp only [goesOn d shown, bind_assoc]

/-- What is read may be converted. -/
theorem map (reads : ReadsThrough part read) (f : α → β) :
    ReadsThrough part fun d => (read d).map f :=
  (reads.bind fun x => .ok (f x)).congr fun d _ => by cases read d <;> rfl

/-- Other readers may come before, as long as they have no use for the gap. -/
theorem after (first : Except Problem β) {read : β → Document → Except Problem α}
    (reads : ∀ x, ReadsThrough part (read x)) :
    ReadsThrough part fun d => first >>= (read · d) := by
  cases first with
  | error problem => exact .inl ⟨problem, fun _ _ => rfl⟩
  | ok x => exact reads x

/-- What is read within an array or object may be made into something else, if nothing is wrong with
the end. -/
theorem enter (source : Source) {read : Source → Document → Except Problem β}
    (reads : ∀ inner, ReadsThrough part (read inner)) (defect : Option Defect) (make : β → α) :
    ReadsThrough part fun d => source.enter >>= fun inner => read inner d >>= fun x =>
      Problem.guard defect >>= fun _ => pure (make x) :=
  after source.enter fun inner => (reads inner).bind fun x =>
    Problem.guard defect >>= fun _ => pure (make x)

/-- What the value in the gap makes impossible does not come out of the whole. -/
theorem ne_ok (reads : ReadsThrough part read) {d : Document} (shown : d.Shown)
    (refused : ∀ source v, Value.read source part d ≠ .ok v) (x : α) : read d ≠ .ok x := by
  rcases reads with ⟨problem, fails⟩ | ⟨inner, next, goesOn⟩
  · rw [fails d shown]
    exact fun success => nomatch success
  · rw [goesOn d shown]
    intro success
    obtain ⟨v, held, _⟩ := Problem.bind_eq_ok success
    exact refused inner v held

/-- Documents that are read alike in the gap are read alike in the whole. -/
theorem agree (reads : ReadsThrough part read) {d e : Document} (shown : d.Shown)
    (shown' : e.Shown)
    (alike : ∀ source, Agree Eq (Value.read source part d) (Value.read source part e)) :
    Agree Eq (read d) (read e) := by
  rcases reads with ⟨problem, fails⟩ | ⟨inner, next, goesOn⟩
  · rw [fails d shown, fails e shown']
    trivial
  · rw [goesOn d shown, goesOn e shown']
    exact (alike inner).bind fun _ _ same => same ▸ .refl _

end ReadsThrough

end Document

/-! ## The layers of a document -/

section Layers

variable {source : Source} {part : Ty} {fill : Document → Document}

open Document

/-- A field is read through its value. -/
theorem FieldValue.readsThrough (shown : ∀ d : Document, d.Shown → (fill d).Shown) {t : FieldType}
    (reads : ReadsThrough part fun d => Value.read source t.held (fill d)) :
    ReadsThrough part fun d => readWith (fun t => Value.read source t (fill d)) (fill d) t :=
  (reads.map (hold t)).congr fun d held => readWith_eq_map (shown d held) t

/-- The members of a node are read through the value of one of them. -/
theorem Draft.readsThrough_members {k : Kind} {f : Field} {name : Literal} (known : f ∈ k.fields)
    (named : name.read = .ok f.name)
    (reads : ReadsThrough part fun d =>
      FieldValue.readWith (fun t => Value.read source t (fill d)) (fill d) f.type)
    (draft : Draft k.fields) (before after : List (Literal × Document)) :
    ReadsThrough part fun d =>
      readMembers source draft (before ++ (name, fill d) :: after) := by
  obtain ⟨place, found⟩ := k.exists_find? known
  have member (draft : Draft k.fields) :
      ReadsThrough part fun d => readMember source draft (name, fill d) := by
    cases come : (draft.get place).isSome with
    | true =>
        refine .inl ⟨.mismatch (.repeatedField f.name), fun d _ => ?_⟩
        simp only [readMember, named, Problem.ok_bind, found, come, if_true]
        rfl
    | false =>
        refine (reads.bind fun v => .ok (draft.set place v)).congr fun d _ => ?_
        simp only [readMember, named, Problem.ok_bind, found, come, Bool.false_eq_true, if_false]
        rfl
  refine (ReadsThrough.after (readMembers source draft before) fun draft =>
    (member draft).bind (readMembers source · after)).congr fun d _ => ?_
  rw [readMembers_append]
  exact congrArg _ (funext fun next => readMembers_eq_bind next _ after)

/-- The items of a node in positional form are read through one of them. -/
theorem Draft.readsThrough_items {f : Field} (total : Nat) (before after : List Document)
    {fs : List Field} (placed : fs[before.length]? = some f)
    (reads : ReadsThrough part fun d =>
      FieldValue.readWith (fun t => Value.read source t (fill d)) (fill d) f.type) :
    ReadsThrough part fun d => readItems source total fs (before ++ fill d :: after) := by
  induction before generalizing fs with
  | nil =>
      cases fs with
      | nil => cases placed
      | cons g fs =>
          obtain rfl : g = f := Option.some.inj placed
          refine (reads.bind fun v => readItems source total fs after >>= fun rest =>
            .ok (.cons (some v) rest)).congr fun d _ => ?_
          rw [List.nil_append, readItems]
          rfl
  | cons item before inductionHypothesis =>
      cases fs with
      | nil => cases placed
      | cons g fs =>
          have later : ReadsThrough part fun d =>
              readItems source total fs (before ++ fill d :: after) := inductionHypothesis placed
          refine (ReadsThrough.after
            (FieldValue.readWith (fun t => Value.read source t item) item g.type) fun v =>
              later.bind fun rest => .ok (.cons (some v) rest)).congr fun d _ => ?_
          rw [List.cons_append, readItems]
          rfl

/-- The slots of a list of nodes are read through one of them. -/
theorem Slots.readsThrough {k : Kind} (shown : ∀ d : Document, d.Shown → (fill d).Shown)
    (reads : ReadsThrough part fun d => Value.read source (.node k) (fill d))
    (before after : List Document) :
    ReadsThrough part fun d => Slots.read source k (before ++ fill d :: after) := by
  induction before with
  | nil =>
      refine ((reads.map fun v => some v.toNode).bind fun slot => Slots.read source k after >>=
        fun rest => .ok (slot :: rest)).congr fun d held => ?_
      rw [List.nil_append, Slots.read, (shown d held).isNull_eq_false]
      rfl
  | cons item before inductionHypothesis =>
      refine (ReadsThrough.after (if item.isNull then .ok none
          else (Value.read source (.node k) item).map (some ·.toNode)) fun slot =>
        inductionHypothesis.bind fun rest => .ok (slot :: rest)).congr fun d _ => ?_
      rw [List.cons_append, Slots.read]
      cases item.isNull <;> rfl

/-- The entries of a map of nodes are read through one of them. -/
theorem Entries.readsThrough {k : Kind} (name : Literal)
    (reads : ReadsThrough part fun d => Value.read source (.node k) (fill d))
    (before after : List (Literal × Document)) :
    ReadsThrough part fun d => Entries.read source k (before ++ (name, fill d) :: after) := by
  induction before with
  | nil =>
      refine (ReadsThrough.after name.read fun key => reads.bind fun v =>
        Entries.read source k after >>= fun rest =>
          .ok ((key, v.toNode) :: rest)).congr fun d _ => ?_
      rw [List.nil_append, Entries.read]
      rfl
  | cons member before inductionHypothesis =>
      refine (ReadsThrough.after member.1.read fun key =>
        ReadsThrough.after (Value.read source (.node k) member.2) fun v =>
          inductionHypothesis.bind fun rest => .ok ((key, v.toNode) :: rest)).congr fun d _ => ?_
      rw [List.cons_append, Entries.read]
      rfl

end Layers

namespace Document.Context

variable {whole part : Ty} {fill : Document → Document}

/-- A document with a gap is read up to the gap, and on from what is read there. -/
theorem readsThrough (context : Context whole part fill) (source : Source) :
    ReadsThrough part fun d => Value.read source whole (fill d) := by
  induction context generalizing source with
  | here => exact .inr ⟨source, .ok, fun d _ => (bind_pure _).symm⟩
  | @member k _ _ _ _ before after ending known named inner inductionHypothesis =>
      have members (source : Source) := Draft.readsThrough_members known named
        (FieldValue.readsThrough (fun _ => inner.shown) (inductionHypothesis source))
        (Draft.blank k.fields) before after
      refine (ReadsThrough.enter source members ending.defect? fun draft =>
        .node (.mk draft.finish)).congr fun d _ => ?_
      rw [Value.read]
  | item before after defect placed inner inductionHypothesis =>
      have items (source : Source) := Draft.readsThrough_items
        (before.length + (after.length + 1)) before after placed
        (FieldValue.readsThrough (fun _ => inner.shown) (inductionHypothesis source))
      refine (ReadsThrough.enter source items defect fun draft =>
        .node (.mk draft.finish)).congr fun d _ => ?_
      rw [Value.read, List.length_append, List.length_cons]
  | slot before after defect inner inductionHypothesis =>
      have slots (source : Source) :=
        Slots.readsThrough (fun _ => inner.shown) (inductionHypothesis source) before after
      refine (ReadsThrough.enter source slots defect fun slots =>
        .nodes (Slots.ofList slots)).congr fun d _ => ?_
      rw [Value.read]
  | @entry _ _ _ name before after ending inner inductionHypothesis =>
      have entries (source : Source) :=
        Entries.readsThrough name (inductionHypothesis source) before after
      refine (ReadsThrough.enter source entries ending.defect? fun entries =>
        .nodeMap (Entries.ofDict (Dict.ofList entries))).congr fun d _ => ?_
      rw [Value.read]

/-- What is refused in the gap is refused in the whole. -/
theorem read_ne_ok (context : Context whole part fill) {d : Document} (shown : d.Shown)
    (refused : ∀ source v, Value.read source part d ≠ .ok v) (source : Source) (v : Value whole) :
    Value.read source whole (fill d) ≠ .ok v :=
  (context.readsThrough source).ne_ok shown refused v

/-- Documents that are read alike in the gap are read alike in the whole. -/
theorem agree_read (context : Context whole part fill) {d e : Document} (shown : d.Shown)
    (shown' : e.Shown)
    (alike : ∀ source, Agree Eq (Value.read source part d) (Value.read source part e))
    (source : Source) :
    Agree Eq (Value.read source whole (fill d)) (Value.read source whole (fill e)) :=
  (context.readsThrough source).agree shown shown' alike

end Document.Context
end Sarif
