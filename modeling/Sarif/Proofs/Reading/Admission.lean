import Sarif.Reading.Source

/-!
# How deep a document nests

A text may open 127 arrays and objects within one another. If its numbers read back, this is the
only thing that can stand between a value and its being read from its own document. `Source.within`
is the outcome of such a reading: the value, if the source admits the nesting of the document, and
otherwise the defect of a text that nests too deep. Readers that run one after the other add up by
`Source.bind_within`, a reader within an array or object by `Source.enter_bind_make`.

Where numbers need not read back, `Source.Settles` leaves open what is read and still says that
nothing is read from a document that nests too deep.
-/

namespace Sarif

namespace Document

mutual

/-- How many arrays and objects of a document stand within one another. -/
def nesting : Document → Nat
  | .array items _ => itemsNesting items + 1
  | .object members _ => membersNesting members + 1
  | _ => 0

/-- The deepest nesting in a run of items. -/
def itemsNesting : List Document → Nat
  | [] => 0
  | item :: rest => max (nesting item) (itemsNesting rest)

/-- The deepest nesting in a run of members. -/
def membersNesting : List (Literal × Document) → Nat
  | [] => 0
  | (_, value) :: rest => max (nesting value) (membersNesting rest)

end

/-- A run of items nests no deeper than a bound on each of them. -/
theorem itemsNesting_le {bound : Nat} {items : List Document}
    (each : ∀ item ∈ items, item.nesting ≤ bound) : itemsNesting items ≤ bound := by
  induction items with
  | nil => exact Nat.zero_le _
  | cons item rest inductionHypothesis =>
      have tail := inductionHypothesis fun other member =>
        each other (List.mem_cons_of_mem _ member)
      exact Nat.max_le.mpr ⟨each item (List.mem_cons_self ..), tail⟩

/-- A run of members nests no deeper than a bound on each of them. -/
theorem membersNesting_le {bound : Nat} {members : List (Literal × Document)}
    (each : ∀ member ∈ members, member.2.nesting ≤ bound) : membersNesting members ≤ bound := by
  induction members with
  | nil => exact Nat.zero_le _
  | cons member rest inductionHypothesis =>
      have tail := inductionHypothesis fun other inside =>
        each other (List.mem_cons_of_mem _ inside)
      exact Nat.max_le.mpr ⟨each member (List.mem_cons_self ..), tail⟩

/-- An item nests no deeper than its run. -/
theorem nesting_le_itemsNesting {item : Document} {items : List Document} (inside : item ∈ items) :
    item.nesting ≤ itemsNesting items := by
  induction items with
  | nil => cases inside
  | cons first rest inductionHypothesis =>
      rcases List.mem_cons.mp inside with rfl | later
      · exact Nat.le_max_left ..
      · exact Nat.le_trans (inductionHypothesis later) (Nat.le_max_right ..)

/-- The value of a member nests no deeper than its run. -/
theorem nesting_le_membersNesting {member : Literal × Document}
    {members : List (Literal × Document)} (inside : member ∈ members) :
    member.2.nesting ≤ membersNesting members := by
  induction members with
  | nil => cases inside
  | cons first rest inductionHypothesis =>
      rcases List.mem_cons.mp inside with rfl | later
      · exact Nat.le_max_left ..
      · exact Nat.le_trans (inductionHypothesis later) (Nat.le_max_right ..)

end Document

namespace Source

/-- Whether arrays and objects may be opened in a source that many deep. -/
def admits : Source → Nat → Bool
  | text room, nesting => decide (nesting ≤ room)
  | stored, _ => true

variable {α β : Type}

/-- The outcome of reading a value from a document that nests that deep. -/
def within (source : Source) (nesting : Nat) (value : α) : Except Problem α :=
  if source.admits nesting then .ok value else .error (.broken .malformed)

/-- What nests no deeper than the room that is left is read. -/
theorem within_of_le {room nesting : Nat} (shallow : nesting ≤ room) (value : α) :
    (text room).within nesting value = .ok value :=
  if_pos (decide_eq_true shallow)

/-- What nests deeper than the room that is left is refused. -/
theorem within_of_lt {room nesting : Nat} (deep : room < nesting) (value : α) :
    (text room).within nesting value = .error (.broken .malformed) := by
  have refused : ¬ (text room).admits nesting = true := by
    intro admitted
    exact absurd (of_decide_eq_true admitted) (Nat.not_le.mpr deep)
  exact if_neg refused

/-- A document with no array or object in it is always admitted. -/
@[simp] theorem within_zero (source : Source) (value : α) : source.within 0 value = .ok value := by
  cases source <;> simp [within, admits]

/-- A function of the value that is read. -/
@[simp] theorem map_within (source : Source) (nesting : Nat) (value : α) (f : α → β) :
    (source.within nesting value).map f = source.within nesting (f value) := by
  unfold within
  split <;> rfl

/-- A source admits two documents when it admits the deeper one. -/
theorem admits_max (source : Source) (one other : Nat) :
    source.admits (max one other) = (source.admits one && source.admits other) := by
  cases source with
  | stored => rfl
  | text room => simp only [admits, Nat.max_le, Bool.decide_and]

/-- Two values that are read one after the other. -/
theorem bind_within {source : Source} {one other : Nat} {value : α} {result : β}
    {next : α → Except Problem β} (rest : next value = source.within other result) :
    (source.within one value >>= next) = source.within (max one other) result := by
  unfold within at *
  rw [admits_max]
  cases source.admits one with
  | false => rfl
  | true =>
      rw [Bool.true_and]
      exact rest

/-- A value that is read and handed on. -/
theorem bind_within_ok {source : Source} {nesting : Nat} {value : α} {result : β}
    {next : α → Except Problem β} (rest : next value = .ok result) :
    (source.within nesting value >>= next) = source.within nesting result := by
  have passed : (source.within nesting value >>= next) = source.within (max nesting 0) result :=
    bind_within (rest.trans (within_zero source result).symm)
  rwa [Nat.max_eq_left (Nat.zero_le _)] at passed

/-- Floating-point numbers are read within an array or object as they are around it. -/
theorem float?_of_enter {source inner : Source} (entered : source.enter = .ok inner) :
    inner.float? = source.float? := by
  match source, entered with
  | stored, rfl => rfl
  | text (room + 1), rfl => rfl

/-- A value that is read within one more array or object. -/
theorem enter_bind {source : Source} {nesting : Nat} {result : β}
    {next : Source → Except Problem β}
    (rest : ∀ inner, inner.float? = source.float? → next inner = inner.within nesting result) :
    (source.enter >>= next) = source.within (nesting + 1) result := by
  match source with
  | stored => exact rest stored rfl
  | text 0 => rfl
  | text (room + 1) =>
      have entered : (enter (text (room + 1)) >>= next) = next (text room) := rfl
      rw [entered, rest (text room) rfl]
      simp [within, admits]

/-- What is read within an array or object, and then made into something else, when nothing is wrong
with the end. -/
theorem enter_bind_make {source : Source} {nesting : Nat} {value : α} {result : β}
    {read : Source → Except Problem α} {make : α → β}
    (each : ∀ inner, inner.float? = source.float? → read inner = inner.within nesting value)
    (made : make value = result) :
    (source.enter >>= fun inner => read inner >>= fun value =>
      Problem.guard none >>= fun _ => pure (make value)) = source.within (nesting + 1) result := by
  refine enter_bind fun inner same => ?_
  rw [each inner same]
  exact bind_within_ok (congrArg Except.ok made)

/-- A source that admits one level more may be entered. -/
theorem exists_enter {source : Source} {nesting : Nat}
    (admitted : source.admits (nesting + 1) = true) :
    ∃ inner, source.enter = .ok inner ∧ inner.admits nesting = true := by
  match source with
  | .stored => exact ⟨.stored, rfl, rfl⟩
  | .text 0 =>
      have none : nesting + 1 ≤ 0 := of_decide_eq_true admitted
      omega
  | .text (room + 1) =>
      have shallow : nesting + 1 ≤ room + 1 := of_decide_eq_true admitted
      exact ⟨.text room, rfl, decide_eq_true (Nat.le_of_succ_le_succ shallow)⟩

/-- A source that was entered had room for one level more than what is admitted within. -/
theorem admits_of_enter {source inner : Source} {nesting : Nat}
    (entered : source.enter = .ok inner) (admitted : source.admits (nesting + 1) = true) :
    inner.admits nesting = true := by
  obtain ⟨inner', entered', room⟩ := exists_enter admitted
  exact Except.ok.inj (entered.symm.trans entered') ▸ room

/-- A source admits what nests no deeper than something that it admits. -/
theorem admits_of_le {source : Source} {low high : Nat} (rise : low ≤ high)
    (admitted : source.admits high = true) : source.admits low = true := by
  cases source with
  | stored => rfl
  | text room => exact decide_eq_true (Nat.le_trans rise (of_decide_eq_true admitted))

/-- A source that was entered admits one level more than what it was entered for. -/
theorem admits_succ_of_enter {source inner : Source} {nesting : Nat}
    (entered : source.enter = .ok inner) (room : inner.admits nesting = true) :
    source.admits (nesting + 1) = true := by
  match source, entered with
  | .stored, _ => rfl
  | .text (left + 1), entered =>
      obtain rfl := Except.ok.inj entered
      exact decide_eq_true (Nat.succ_le_succ (of_decide_eq_true room))

/-- Every source admits what holds no array or object. -/
theorem admits_zero (source : Source) : source.admits 0 = true := by
  cases source with
  | stored => rfl
  | text room => exact decide_eq_true (Nat.zero_le room)

/-- A source admits a run of items when it admits each of them. -/
theorem admits_itemsNesting {source : Source} {items : List Document}
    (each : ∀ item ∈ items, source.admits item.nesting = true) :
    source.admits (Document.itemsNesting items) = true := by
  cases source with
  | stored => rfl
  | text room =>
      exact decide_eq_true (Document.itemsNesting_le fun item inside =>
        of_decide_eq_true (each item inside))

/-- A source admits a run of members when it admits each value. -/
theorem admits_membersNesting {source : Source} {members : List (Literal × Document)}
    (each : ∀ member ∈ members, source.admits member.2.nesting = true) :
    source.admits (Document.membersNesting members) = true := by
  cases source with
  | stored => rfl
  | text room =>
      exact decide_eq_true (Document.membersNesting_le fun member inside =>
        of_decide_eq_true (each member inside))

end Source

namespace Problem

variable {α β : Type}

/-- A reader hands on what it has read. -/
@[simp] theorem ok_bind (x : α) (next : α → Except Problem β) : (Except.ok x >>= next) = next x :=
  rfl

/-- A chain of readers that succeeds has a first reader that does. -/
theorem bind_eq_ok {first : Except Problem α} {next : α → Except Problem β} {result : β}
    (success : (first >>= next) = .ok result) :
    ∃ value, first = .ok value ∧ next value = .ok result := by
  cases first with
  | error problem => cases success
  | ok value => exact ⟨value, rfl, success⟩

/-- A reader whose result is converted has a result. -/
theorem map_eq_ok {first : Except Problem α} {f : α → β} {result : β}
    (success : first.map f = .ok result) : ∃ value, first = .ok value ∧ f value = result := by
  cases first with
  | error problem => cases success
  | ok value => exact ⟨value, rfl, Except.ok.inj success⟩

end Problem

/-- What comes out of reading within an array or object is made of what its reader yields, and shows
that there was room for one more and that nothing is wrong with the end. -/
theorem Source.of_enter_bind {α β : Type} {source : Source} {read : Source → Except Problem α}
    {defect : Option Defect} {make : α → β} {result : β}
    (success : (source.enter >>= fun inner => read inner >>= fun value =>
      Problem.guard defect >>= fun _ => pure (make value)) = .ok result) :
    defect = none ∧ ∃ inner value, source.enter = .ok inner ∧ read inner = .ok value ∧
      make value = result := by
  obtain ⟨inner, entered, success⟩ := Problem.bind_eq_ok success
  obtain ⟨value, held, success⟩ := Problem.bind_eq_ok success
  obtain ⟨_, closed, success⟩ := Problem.bind_eq_ok success
  cases defect with
  | some d => cases closed
  | none => exact ⟨rfl, inner, value, entered, held, Except.ok.inj success⟩

/-- A refused document yields nothing. -/
theorem Document.refuse_ne_ok {α : Type} {source : Source} (wanted : Wanted) (d : Document)
    (value : α) : d.refuse source wanted ≠ .ok value := by
  intro success
  obtain ⟨_, _, refused⟩ := Problem.bind_eq_ok success
  cases refused

/-! ## Readers that fail for one reason only -/

namespace Source

variable {α β : Type} {source : Source}

/-- A document that nests that deep is read from a source that admits it, or is refused as
malformed. Unlike `within` this does not say what is read, nor that anything is. -/
def Settles (source : Source) (nesting : Nat) : Except Problem α → Prop
  | .ok _ => source.admits nesting = true
  | .error problem => problem = .broken .malformed

/-- What nests deeper than a source admits is refused. -/
theorem Settles.eq_error {nesting : Nat} {outcome : Except Problem α}
    (settles : source.Settles nesting outcome) (deep : source.admits nesting = false) :
    outcome = .error (.broken .malformed) := by
  cases outcome with
  | error problem => exact congrArg Except.error settles
  | ok value =>
      have admitted : source.admits nesting = true := settles
      exact absurd admitted (Bool.eq_false_iff.mp deep)

/-- A value that is read and handed on. -/
theorem Settles.map {nesting : Nat} {outcome : Except Problem α}
    (settles : source.Settles nesting outcome) (f : α → β) :
    source.Settles nesting (outcome.map f) := by
  cases outcome <;> exact settles

/-- Two values that are read one after the other and put together. -/
theorem Settles.append {γ : Type} {one other : Nat} {first : Except Problem α}
    {second : Except Problem β} (head : source.Settles one first)
    (tail : source.Settles other second) (make : α → β → γ) :
    source.Settles (max one other) (first >>= fun x => second >>= fun y => pure (make x y)) := by
  cases first with
  | error problem => exact head
  | ok x =>
      cases second with
      | error problem => exact tail
      | ok y =>
          have both : (source.admits one && source.admits other) = true :=
            Bool.and_eq_true_iff.mpr ⟨head, tail⟩
          exact (source.admits_max one other).trans both

/-- What is read within an array or object, and then made into something else, when nothing is wrong
with the end. -/
theorem Settles.enter {nesting : Nat} {read : Source → Except Problem α}
    (inside : ∀ inner : Source, inner.Settles nesting (read inner)) (make : α → β) :
    source.Settles (nesting + 1) (source.enter >>= fun inner => read inner >>= fun value =>
      Problem.guard none >>= fun _ => pure (make value)) := by
  cases entered : source.enter with
  | error problem =>
      match source, entered with
      | text 0, rfl => rfl
  | ok inner =>
      have settled := inside inner
      rw [Problem.ok_bind]
      cases outcome : read inner with
      | error problem =>
          rw [outcome] at settled
          exact settled
      | ok value =>
          rw [outcome] at settled
          exact admits_succ_of_enter entered settled

end Source

end Sarif
