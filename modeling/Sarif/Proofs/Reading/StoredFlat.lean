import Sarif.Proofs.Reading.Stored

/-!
# Scalars and flat values of a stored document

What is not a node is read alike from a document and from the one it is stored as. A scalar is read
without a look at its source except for what its numeral stands for, unless it is a choice, which a
text has to have room for, or any JSON value. Lists and maps are read alike since their items are.
-/

namespace Sarif

/-! ## Scalars -/

namespace Choice

variable (c : Choice)

/-- What is neither a string nor an object is not read as a choice. -/
theorem read_ne_ok {source : Source} {d : Document} (notLiteral : ∀ l, d ≠ .literal l)
    (notObject : ∀ members ending, d ≠ .object members ending) (value : c.Value) :
    c.read source d ≠ .ok value := by
  intro success
  cases source with
  | stored =>
      cases d with
      | literal l => exact notLiteral l rfl
      | object members ending => exact notObject members ending rfl
      | broken what => cases what <;> exact Document.refuse_ne_ok _ _ _ success
      | _ => exact Document.refuse_ne_ok _ _ _ success
  | text room =>
      cases d with
      | literal l => exact notLiteral l rfl
      | object members ending => exact notObject members ending rfl
      | broken what => cases what <;> cases success
      | _ => cases success

/-- The null beside the name of a choice is read alike. -/
theorem agree_readUnit {source source' : Source} {relate : Numeral → Numeral → Prop}
    {d e : Document} (alike : d.Alike relate e) :
    Agree Eq (readUnit source d) (readUnit source' e) := by
  have fails {source : Source} {d : Document} (shown : d.Shown) (value : Unit) :
      readUnit source d ≠ .ok value := by
    cases d with
    | null => exact shown.elim
    | _ => exact Document.refuse_ne_ok _ _ _
  rcases alike.null_or_shown with ⟨rfl, rfl⟩ | ⟨shown, shown'⟩
  · exact .refl _
  · exact .of_ne_ok (fails shown) (fails shown')

/-- A choice is the only member of its object. -/
theorem exists_of_readTextObject {source : Source} {members : List (Literal × Document)}
    {value : c.Value} (success : c.readTextObject source members .closed = .ok value) :
    ∃ member, members = [member] := by
  match members with
  | [] => cases success
  | [member] => exact ⟨member, rfl⟩
  | _ :: _ :: _ =>
      obtain ⟨_, _, success⟩ := Problem.bind_eq_ok success
      obtain ⟨_, _, success⟩ := Problem.bind_eq_ok success
      cases success

/-- A choice is the only member of its stored object. -/
theorem exists_of_readStoredObject {members : List (Literal × Document)} {value : c.Value}
    (success : c.readStoredObject members = .ok value) : ∃ member, members = [member] := by
  match members with
  | [] => cases success
  | [member] => exact ⟨member, rfl⟩
  | _ :: _ :: _ => cases success

/-- The name of a choice is looked up alike. -/
theorem readName_eq_of_alike {l m : Literal} (alike : l.Alike m) : c.readName l = c.readName m := by
  rw [readName, readName, alike.read_eq]

/-- A choice that is the only member of its object is read alike. -/
theorem agree_readSingle {source : Source} {member other : Literal × Document}
    (stored : (Document.object [member] .closed).StoredAs source (.object [other] .closed)) :
    Agree Eq (c.read source (.object [member] .closed))
      (c.read .stored (.object [other] .closed)) := by
  obtain ⟨inner, entered, _⟩ := Source.exists_enter stored.admitted
  obtain ⟨_, reordered, perm, _, each⟩ := stored.members
  obtain rfl := List.perm_singleton.mp perm.symm
  obtain ⟨⟨named, held⟩, _⟩ := List.forall₂_cons.mp (each inner entered)
  have chosen {source : Source} : Agree Eq
      (c.readName member.1 >>= fun value => readUnit source member.2 >>= fun _ => pure value)
      (c.readStoredObject [other]) := by
    rw [readStoredObject, c.readName_eq_of_alike named]
    exact (Agree.refl _).bind fun _ _ same => (agree_readUnit held.alike).bind fun _ _ _ => same
  cases source with
  | stored => exact chosen
  | text room =>
      rw [read, entered]
      exact chosen

/-- An object of no member or of several is not read as a choice. -/
theorem readObject_ne_ok {source : Source} {members : List (Literal × Document)}
    (several : ¬ ∃ member, members = [member]) (value : c.Value) :
    c.read source (.object members .closed) ≠ .ok value := by
  intro success
  cases source with
  | stored => exact several (c.exists_of_readStoredObject success)
  | text room =>
      obtain ⟨_, _, success⟩ := Problem.bind_eq_ok success
      exact several (c.exists_of_readTextObject success)

/-- A choice is read alike: its name by itself, or as the only member of an object. -/
theorem agree_read {source : Source} {d e : Document} (stored : d.StoredAs source e) :
    Agree Eq (c.read source d) (c.read .stored e) := by
  match d, e, stored, stored.alike with
  | .literal l, .literal m, _, alike =>
      have same : c.read source (.literal l) = c.read .stored (.literal m) := by
        cases source <;> exact c.readName_eq_of_alike alike
      exact same ▸ .refl _
  | .object members .closed, .object others .closed, stored, _ =>
      obtain ⟨inner, entered, _⟩ := Source.exists_enter stored.admitted
      obtain ⟨_, reordered, perm, _, each⟩ := stored.members
      have size : members.length = others.length :=
        (each inner entered).length_eq.trans perm.length_eq.symm
      by_cases single : ∃ member, members = [member]
      · obtain ⟨member, rfl⟩ := single
        obtain ⟨other, rfl⟩ := List.length_eq_one_iff.mp size.symm
        exact c.agree_readSingle stored
      · have single' : ¬ ∃ other, others = [other] := by
          rwa [← List.length_eq_one_iff, ← size, List.length_eq_one_iff]
        exact .of_ne_ok (c.readObject_ne_ok single) (c.readObject_ne_ok single')
  | .null, .null, _, _ | .boolean _, .boolean _, _, _ | .numeral _, .numeral _, _, _ |
    .array _ none, .array _ none, _, _ =>
      refine .of_ne_ok (c.read_ne_ok ?_ ?_) (c.read_ne_ok ?_ ?_) <;> simp

end Choice

namespace Scalar

/-- A scalar that is neither a choice nor any JSON value is read from a document as from the one
it is stored as, with the same failure if it fails. -/
theorem read_eq_of_alike {s : Scalar} (notJson : s ≠ .json) (notChoice : ∀ c, s ≠ .choice c)
    {source : Source} {d e : Document} (alike : d.Alike (Numeral.StoredAs source) e) :
    s.read source d = s.read .stored e := by
  match d, e, alike with
  | .numeral n, .numeral m, ⟨a, first, second⟩ =>
      have same : n.read source = m.read .stored := first.trans second.symm
      cases s with
      | json => exact (notJson rfl).elim
      | choice c => exact (notChoice c rfl).elim
      | _ =>
          simp only [read, Width.read, Sentinel.read, DateTime.read, Document.refuse,
            Document.found, same]
  | .literal l, .literal m, alike =>
      have same : l.read = m.read := Literal.Alike.read_eq alike
      cases s with
      | json => exact (notJson rfl).elim
      | choice c => exact (notChoice c rfl).elim
      | _ =>
          simp only [read, Width.read, Sentinel.read, DateTime.read, Document.refuse,
            Document.found, same]
  | .null, .null, _ | .boolean _, .boolean _, rfl | .array _ none, .array _ none, _ |
    .object _ .closed, .object _ .closed, _ =>
      cases s with
      | json => exact (notJson rfl).elim
      | choice c => exact (notChoice c rfl).elim
      | _ => rfl

/-- Scalars are read alike. -/
theorem agree_read (s : Scalar) {source : Source} {d e : Document} (stored : d.StoredAs source e) :
    Agree Eq (s.read source d) (s.read .stored e) := by
  have simple (notJson : s ≠ .json) (notChoice : ∀ c, s ≠ .choice c) :
      Agree Eq (s.read source d) (s.read .stored e) := by
    rw [read_eq_of_alike notJson notChoice stored.alike]
    exact .refl _
  cases s with
  | json => exact Json.agree_read stored
  | choice c => exact c.agree_read stored
  | _ => exact simple nofun nofun

end Scalar

/-! ## Flat values -/

/-- Scalars that are identical. -/
def Scalar.Identical (s : Scalar) (x y : s.Value) : Prop :=
  x = y

namespace Flat

/-- What may be absent is read alike. -/
theorem agree_readOptional {α β : Type} {relate : α → β → Prop}
    {numerals : Numeral → Numeral → Prop} {read : Document → Except Problem α}
    {read' : Document → Except Problem β} {d e : Document} (alike : d.Alike numerals e)
    (agree : Agree relate (read d) (read' e)) :
    Agree (Option.Rel relate) (Document.readOptional read d) (Document.readOptional read' e) := by
  rcases alike.null_or_shown with ⟨rfl, rfl⟩ | ⟨shown, shown'⟩
  · exact Option.Rel.none
  · rw [Document.readOptional_of_shown read shown, Document.readOptional_of_shown read' shown']
    exact agree.map fun _ _ related => .some related

/-- Arrays are read alike when their items are. -/
theorem agree_readArray {α : Type} {relate : α → α → Prop}
    {read : Source → Document → Except Problem α} {source : Source} {d e : Document}
    (stored : d.StoredAs source e)
    (each : ∀ {inner : Source} {item other : Document}, item.StoredAs inner other →
      Agree relate (read inner item) (read .stored other)) :
    Agree (List.Forall₂ relate) (readArray source read d) (readArray .stored read e) := by
  match d, e, stored, stored.alike with
  | .array items none, .array others none, stored, _ =>
      exact Agree.enter stored.admitted
        (fun inner entered => agree_readItems ((stored.items entered).imp fun _ _ => each))
        (fun _ _ related => related)
  | .null, .null, _, _ | .boolean _, .boolean _, _, _ | .numeral _, .numeral _, _, _ |
    .literal _, .literal _, _, _ | .object _ .closed, .object _ .closed, _, _ =>
      exact Agree.refuse _ _ _ _

/-- Ordered maps are read alike when their values are. -/
theorem agree_readMap {α : Type} {relate : α → α → Prop}
    {read : Source → Document → Except Problem α} {source : Source} {d e : Document}
    (stored : d.StoredAs source e)
    (each : ∀ {inner : Source} {item other : Document}, item.StoredAs inner other →
      Agree relate (read inner item) (read .stored other)) :
    Agree (Dict.Related relate) (readMap source read d) (readMap .stored read e) := by
  match d, e, stored, stored.alike with
  | .object members .closed, .object others .closed, stored, _ =>
      obtain ⟨distinct, reordered, perm, _, aligned⟩ := stored.members
      exact Agree.enter stored.admitted
        (fun inner entered => agree_readEntries_of_reordered perm distinct
          ((aligned inner entered).imp fun _ _ pair => ⟨pair.1, each pair.2⟩))
        (fun _ _ result => Dict.related_ofList result.1 result.2)
  | .null, .null, _, _ | .boolean _, .boolean _, _, _ | .numeral _, .numeral _, _, _ |
    .literal _, .literal _, _, _ | .array _ none, .array _ none, _, _ =>
      exact Agree.refuse _ _ _ _

/-- Flat values are read alike. -/
theorem agree_read (f : Flat) {source : Source} {d e : Document} (stored : d.StoredAs source e) :
    Agree (Flat.Related Scalar.Identical f) (f.read source d) (f.read .stored e) := by
  cases f with
  | scalar s => exact s.agree_read stored
  | array s => exact agree_readArray stored s.agree_read
  | slots s =>
      exact agree_readArray stored fun held => agree_readOptional held.alike (s.agree_read held)
  | map s => exact agree_readMap stored s.agree_read

end Flat

end Sarif
