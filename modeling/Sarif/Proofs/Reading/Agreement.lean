import Sarif.Proofs.Node.Related
import Sarif.Proofs.Reading.Admission
import Sarif.Proofs.Reading.Alike

/-!
# Readers that agree

A document can be read in two ways, and `Agree` says that the two come out alike: both fail, or
both succeed with related results. It is carried through whatever readers are built of: one reader
after another, a run of items or of members, an array or object that is entered. Members may come
in another order the second time, which makes no difference to the entries that are read as long
as no name comes twice. Only a text limits nesting, so where one of the two ways is a text it has
to admit what is read.
-/

namespace Sarif

/-- Two outcomes of reading agree when both are failures, or both are values that are related. -/
def Agree {α β : Type} (relate : α → β → Prop) : Except Problem α → Except Problem β → Prop
  | .ok x, .ok y => relate x y
  | .error _, .error _ => True
  | _, _ => False

/-! ## Composing outcomes -/

namespace Agree

variable {α β γ δ : Type} {relate : α → β → Prop} {first : Except Problem α}
  {second : Except Problem β}

/-- Outcomes agree under another relation that follows for what is read. -/
theorem imp {other : α → β → Prop}
    (follows : ∀ x y, first = .ok x → second = .ok y → relate x y → other x y)
    (agree : Agree relate first second) : Agree other first second := by
  cases first <;> cases second
  · trivial
  · exact agree
  · exact agree
  · exact follows _ _ rfl rfl agree

/-- Readers agree that run one after the other. -/
theorem bind {other : γ → δ → Prop} {next : α → Except Problem γ} {next' : β → Except Problem δ}
    (agree : Agree relate first second)
    (rest : ∀ x y, relate x y → Agree other (next x) (next' y)) :
    Agree other (first >>= next) (second >>= next') := by
  cases first <;> cases second
  · trivial
  · exact agree.elim
  · exact agree.elim
  · exact rest _ _ agree

/-- Readers agree whose results are converted. -/
theorem map {other : γ → δ → Prop} {f : α → γ} {g : β → δ} (agree : Agree relate first second)
    (converted : ∀ x y, relate x y → other (f x) (g y)) :
    Agree other (first.map f) (second.map g) := by
  cases first <;> cases second
  · trivial
  · exact agree
  · exact agree
  · exact converted _ _ agree

/-- Outcomes agree that agree with a third one. -/
theorem trans {other : β → γ → Prop} {both : α → γ → Prop} {third : Except Problem γ}
    (through : ∀ x y z, relate x y → other y z → both x z) (agree : Agree relate first second)
    (agree' : Agree other second third) : Agree both first third := by
  cases first with
  | error problem =>
      cases second with
      | ok y => exact agree.elim
      | error problem' =>
          cases third with
          | ok z => exact agree'.elim
          | error problem'' => trivial
  | ok x =>
      cases second with
      | error problem => exact agree.elim
      | ok y =>
          cases third with
          | error problem => exact agree'.elim
          | ok z => exact through x y z agree agree'

/-- Readers that yield nothing agree. -/
theorem of_ne_ok (fails : ∀ x, first ≠ .ok x) (fails' : ∀ y, second ≠ .ok y) :
    Agree relate first second := by
  cases first with
  | ok x => exact (fails x rfl).elim
  | error problem =>
      cases second with
      | ok y => exact (fails' y rfl).elim
      | error problem' => trivial

/-- What one of two readers that agree yields is related to what the other yields. -/
theorem of_eq_ok {x : α} (agree : Agree relate first second) (success : first = .ok x) :
    ∃ y, second = .ok y ∧ relate x y := by
  subst success
  cases second with
  | error problem => exact agree.elim
  | ok y => exact ⟨y, rfl, agree⟩

/-- One of two readers that agree yields something exactly when the other does. -/
theorem exists_ok_iff (agree : Agree relate first second) :
    (∃ x, first = .ok x) ↔ ∃ y, second = .ok y := by
  cases first <;> cases second
  · simp
  · exact agree.elim
  · exact agree.elim
  · simp

/-- Readers agree that have no use for the document. -/
theorem refuse {source source' : Source} (wanted wanted' : Wanted) (d e : Document) :
    Agree relate (d.refuse source wanted) (e.refuse source' wanted') :=
  of_ne_ok (d.refuse_ne_ok wanted) (e.refuse_ne_ok wanted')

/-- Every outcome agrees with itself. -/
theorem refl (outcome : Except Problem α) : Agree Eq outcome outcome := by
  cases outcome with
  | error problem => trivial
  | ok x => exact rfl

/-- Agreement on equal values is symmetric. -/
theorem symm {other : Except Problem α} (agree : Agree Eq first other) : Agree Eq other first := by
  cases first with
  | error problem =>
      cases other with
      | error problem' => trivial
      | ok y => exact agree
  | ok x =>
      cases other with
      | error problem => exact agree
      | ok y => exact Eq.symm agree

variable {one other : α → Except Problem α}

/-- A step that fails in every state may come before or after another one. -/
theorem comm_of_fails (fails : ∀ x y, one x ≠ .ok y) (x : α) :
    Agree Eq (one x >>= other) (other x >>= one) := by
  refine of_ne_ok (fun z success => ?_) fun z success => ?_
  · obtain ⟨y, head, _⟩ := Problem.bind_eq_ok success
    exact fails x y head
  · obtain ⟨y, _, tail⟩ := Problem.bind_eq_ok success
    exact fails y z tail

/-- A step that leaves every state as it is may come before or after another one. -/
theorem comm_of_skips (skips : ∀ x, one x = .ok x) (x : α) :
    Agree Eq (one x >>= other) (other x >>= one) := by
  have unchanged : (other x >>= one) = other x := by
    rw [funext skips]
    cases other x <;> rfl
  rw [unchanged, skips, Problem.ok_bind]
  exact refl _

end Agree

/-- Readers agree within an array or object that is closed. -/
theorem Agree.enter {α β γ δ : Type} {relate : α → β → Prop} {other : γ → δ → Prop}
    {source : Source} {nesting : Nat} (admitted : source.admits (nesting + 1) = true)
    {read : Source → Except Problem α} {read' : Source → Except Problem β} {make : α → γ}
    {make' : β → δ}
    (each : ∀ inner : Source, source.enter = .ok inner →
      Agree relate (read inner) (read' .stored))
    (made : ∀ x y, relate x y → other (make x) (make' y)) :
    Agree other
      (source.enter >>= fun inner => read inner >>= fun x =>
        Problem.guard none >>= fun _ => pure (make x))
      (Source.stored.enter >>= fun inner => read' inner >>= fun y =>
        Problem.guard none >>= fun _ => pure (make' y)) := by
  obtain ⟨inner, entered, _⟩ := Source.exists_enter admitted
  rw [entered]
  show Agree other (read inner >>= fun x => pure (make x))
    (read' .stored >>= fun y => pure (make' y))
  exact (each inner entered).bind made

/-! ## Runs of items and of members -/

namespace Flat

variable {α β : Type} {relate : α → β → Prop} {read : Document → Except Problem α}
  {read' : Document → Except Problem β}

/-- Runs of items are read alike when their items are. -/
theorem agree_readItems {items others : List Document}
    (each : List.Forall₂ (fun item other => Agree relate (read item) (read' other)) items others) :
    Agree (List.Forall₂ relate) (readItems read items) (readItems read' others) := by
  induction each with
  | nil => exact .nil
  | cons head _ inductionHypothesis =>
      exact head.bind fun _ _ first => inductionHypothesis.bind fun _ _ rest => .cons first rest

/-- Runs of members are read alike when their names are and their values are. -/
theorem agree_readEntries {members others : List (Literal × Document)}
    (each : List.Forall₂ (fun member other => member.1.Alike other.1 ∧
      Agree relate (read member.2) (read' other.2)) members others) :
    Agree (List.Forall₂ fun one other => one.1 = other.1 ∧ relate one.2 other.2)
      (readEntries read members) (readEntries read' others) := by
  induction each with
  | nil => exact .nil
  | cons head _ inductionHypothesis =>
      obtain ⟨⟨name, first, second⟩, values⟩ := head
      rw [readEntries, readEntries, first, second]
      exact values.bind fun _ _ value => inductionHypothesis.bind fun _ _ rest =>
        .cons ⟨rfl, value⟩ rest

/-- Members that come in another order are read as entries in another order. -/
theorem agree_readEntries_of_perm {members others : List (Literal × Document)}
    (perm : members.Perm others) :
    Agree List.Perm (readEntries read members) (readEntries read others) := by
  induction perm with
  | nil => exact List.Perm.nil
  | cons member _ inductionHypothesis =>
      rw [readEntries, readEntries]
      cases member.1.read with
      | error problem => trivial
      | ok name =>
          cases read member.2 with
          | error problem => trivial
          | ok value => exact inductionHypothesis.bind fun _ _ rest => rest.cons _
  | swap one other rest =>
      simp only [readEntries]
      cases one.1.read <;> cases read one.2 <;> cases other.1.read <;> cases read other.2 <;>
        cases readEntries read rest <;> first | trivial | exact List.Perm.swap ..
  | trans _ _ first second => exact first.trans (fun _ _ _ one other => one.trans other) second

/-- Items are read one by one. -/
theorem forall₂_of_readItems {items : List Document} {values : List α}
    (success : readItems read items = .ok values) :
    List.Forall₂ (fun item value => read item = .ok value) items values := by
  induction items generalizing values with
  | nil =>
      obtain rfl := Except.ok.inj success
      exact .nil
  | cons item rest inductionHypothesis =>
      obtain ⟨value, head, success⟩ := Problem.bind_eq_ok success
      obtain ⟨others, tail, success⟩ := Problem.bind_eq_ok success
      obtain rfl := Except.ok.inj success
      exact .cons head (inductionHypothesis tail)

/-- Members are read one by one. -/
theorem forall₂_of_readEntries {members : List (Literal × Document)} {entries : List (String × α)}
    (success : readEntries read members = .ok entries) :
    List.Forall₂ (fun member entry => member.1.read = .ok entry.1 ∧ read member.2 = .ok entry.2)
      members entries := by
  induction members generalizing entries with
  | nil =>
      obtain rfl := Except.ok.inj success
      exact .nil
  | cons member rest inductionHypothesis =>
      obtain ⟨key, name, success⟩ := Problem.bind_eq_ok success
      obtain ⟨value, head, success⟩ := Problem.bind_eq_ok success
      obtain ⟨others, tail, success⟩ := Problem.bind_eq_ok success
      obtain rfl := Except.ok.inj success
      exact .cons ⟨name, head⟩ (inductionHypothesis tail)

/-- The keys of entries are the names of the members that they were read from. -/
theorem keys_of_readEntries {members : List (Literal × Document)} {entries : List (String × α)}
    (success : readEntries read members = .ok entries) :
    Document.names members = (entries.map Prod.fst).map .ok := by
  rw [Document.names, ← List.forall₂_eq_eq_eq, List.forall₂_map_left_iff, List.map_map,
    List.forall₂_map_right_iff]
  exact (forall₂_of_readEntries success).imp fun _ _ pair => pair.1

/-- Members that are alike in some order are read as entries that are alike in some order, with
distinct keys if the names are. -/
theorem agree_readEntries_of_reordered {members others reordered : List (Literal × Document)}
    (perm : others.Perm reordered) (distinct : (Document.names members).Nodup)
    (each : List.Forall₂ (fun member other => member.1.Alike other.1 ∧
      Agree relate (read member.2) (read' other.2)) members reordered) :
    Agree (fun xs ys => (xs.map Prod.fst).Nodup ∧ Dict.Aligned relate xs ys)
      (readEntries read members) (readEntries read' others) := by
  have moved : Agree List.Perm (readEntries read' reordered) (readEntries read' others) :=
    agree_readEntries_of_perm perm.symm
  have aligned :
      Agree (Dict.Aligned relate) (readEntries read members) (readEntries read' others) :=
    (agree_readEntries each).trans (fun _ zs _ related perm => ⟨zs, perm.symm, related⟩) moved
  refine aligned.imp fun xs ys success _ related => ⟨?_, related⟩
  rw [keys_of_readEntries success] at distinct
  exact distinct.of_map _

end Flat
end Sarif
