import Sarif.Proofs.Dict
import Sarif.Proofs.Json.Fits
import Sarif.Proofs.Time.WellFormed
import Sarif.Value.Flat

/-!
# What is read as a flat value

Whatever is read as a scalar, an array, a list with empty slots or an ordered map is well-formed,
its numbers are finite, the keys of a map are distinct, and the document that it is written as nests
no deeper than the one it was read from.
-/

namespace Sarif

/-- A scalar as reading makes it, well-formed and finite. -/
def Scalar.Regular (s : Scalar) (x : s.Value) : Prop :=
  s.WellFormed x ∧ s.Finite x

/-- A regular scalar that is written as a document that nests no deeper than a bound. -/
def Scalar.Fits (bound : Nat) (s : Scalar) (x : s.Value) : Prop :=
  s.Regular x ∧ (s.document x).nesting ≤ bound

/-- A flat value of regular scalars that is written as a document that nests no deeper than a
bound. -/
def Flat.Fits (bound : Nat) (f : Flat) (x : f.Value) : Prop :=
  Flat.Each Scalar.Regular List.Nodup f x ∧ (f.document x).nesting ≤ bound

/-! ## Scalars -/

/-- A sentinel that is read is not below `-1`. -/
theorem Sentinel.wellFormed_of_read {source : Source} {d : Document} {x : Sentinel}
    (read : Sentinel.read source d = .ok x) : x.WellFormed := by
  obtain ⟨raw, _, checked⟩ := Problem.bind_eq_ok read
  unfold ofRaw? at checked
  by_cases admitted : admits raw = true
  · rw [if_pos admitted] at checked
    obtain rfl := Except.ok.inj checked
    have bound : -1 ≤ raw := of_decide_eq_true admitted
    exact bound
  · rw [if_neg admitted] at checked
    cases checked

/-- A date-time that is read is well-formed. -/
theorem DateTime.wellFormed_of_read {source : Source} {d : Document} {x : DateTime}
    (read : DateTime.read source d = .ok x) : x.WellFormed := by
  cases d with
  | literal l =>
      obtain ⟨s, _, parsed⟩ := Problem.bind_eq_ok read
      cases found : ofText? s.toList with
      | none =>
          rw [found] at parsed
          cases parsed
      | some t =>
          rw [found] at parsed
          obtain rfl := Except.ok.inj parsed
          exact wellFormed_of_ofText? found
  | _ => exact (Document.refuse_ne_ok _ _ _ read).elim

/-- A floating-point number that is read is finite. -/
theorem Scalar.isFinite_of_read {source : Source} {d : Document} {x : Binary64}
    (read : Scalar.read source .number d = .ok x) : x.isFinite = true := by
  cases d with
  | numeral n =>
      obtain ⟨value, number, rfl⟩ := Problem.map_eq_ok read
      exact Number.isFinite_toFloat (Numeral.wellFormed_of_read number)
  | _ => exact (Document.refuse_ne_ok _ _ _ read).elim

/-- What is read as a scalar fits into its document. -/
theorem Scalar.fits_of_read {source : Source} {d : Document} (s : Scalar) {x : s.Value}
    (read : s.read source d = .ok x) : s.Fits d.nesting x := by
  cases s with
  | number =>
      have finite : Binary64.isFinite x = true := isFinite_of_read read
      refine ⟨⟨trivial, finite⟩, ?_⟩
      simp only [document, finite, if_true]
      exact Nat.zero_le _
  | sentinel => exact ⟨⟨Sentinel.wellFormed_of_read read, trivial⟩, Nat.zero_le _⟩
  | dateTime => exact ⟨⟨DateTime.wellFormed_of_read read, trivial⟩, Nat.zero_le _⟩
  | json =>
      obtain ⟨wellFormed, bound⟩ := Json.fits_of_read d source x read
      exact ⟨⟨wellFormed, trivial⟩, bound⟩
  | _ => exact ⟨⟨trivial, trivial⟩, Nat.zero_le _⟩

/-! ## Runs of items and of members -/

namespace Flat

variable {α : Type} {read : Document → Except Problem α} {holds : α → Prop}

/-- What holds of all that is read from the items of a run one by one. -/
theorem forall_of_readItems {items : List Document} {values : List α}
    (each : ∀ item ∈ items, ∀ x, read item = .ok x → holds x)
    (success : readItems read items = .ok values) : ∀ x ∈ values, holds x := by
  induction items generalizing values with
  | nil =>
      obtain rfl := Except.ok.inj success
      exact fun x inside => nomatch inside
  | cons item rest inductionHypothesis =>
      obtain ⟨first, head, success⟩ := Problem.bind_eq_ok success
      obtain ⟨others, tail, success⟩ := Problem.bind_eq_ok success
      obtain rfl := Except.ok.inj success
      have later := inductionHypothesis
        (fun other inside => each other (List.mem_cons_of_mem _ inside)) tail
      intro x inside
      rcases List.mem_cons.mp inside with rfl | inside
      · exact each item (List.mem_cons_self ..) x head
      · exact later x inside

/-- What holds of all that is read from the values of a run of members one by one. -/
theorem forall_of_readEntries {members : List (Literal × Document)} {entries : List (String × α)}
    (each : ∀ member ∈ members, ∀ x, read member.2 = .ok x → holds x)
    (success : readEntries read members = .ok entries) : ∀ entry ∈ entries, holds entry.2 := by
  induction members generalizing entries with
  | nil =>
      obtain rfl := Except.ok.inj success
      exact fun x inside => nomatch inside
  | cons member rest inductionHypothesis =>
      obtain ⟨name, value⟩ := member
      obtain ⟨key, _, success⟩ := Problem.bind_eq_ok success
      obtain ⟨first, head, success⟩ := Problem.bind_eq_ok success
      obtain ⟨others, tail, success⟩ := Problem.bind_eq_ok success
      obtain rfl := Except.ok.inj success
      have later := inductionHypothesis
        (fun other inside => each other (List.mem_cons_of_mem _ inside)) tail
      intro entry inside
      rcases List.mem_cons.mp inside with rfl | inside
      · exact each (name, value) (List.mem_cons_self ..) first head
      · exact later entry inside

/-- An array is read from an array, item by item. -/
theorem items_of_readArray {source : Source} {read : Source → Document → Except Problem α}
    {d : Document} {values : List α} (success : readArray source read d = .ok values) :
    ∃ items defect inner, d = .array items defect ∧ readItems (read inner) items = .ok values := by
  cases d with
  | array items defect =>
      obtain ⟨_, inner, _, _, each, rfl⟩ := Source.of_enter_bind success
      exact ⟨items, defect, inner, rfl, each⟩
  | _ => exact (Document.refuse_ne_ok _ _ _ success).elim

/-- A map is read from an object, member by member. -/
theorem members_of_readMap {source : Source} {read : Source → Document → Except Problem α}
    {d : Document} {x : Dict α} (success : readMap source read d = .ok x) :
    ∃ members ending inner entries, d = .object members ending ∧
      readEntries (read inner) members = .ok entries ∧ Dict.ofList entries = x := by
  cases d with
  | object members ending =>
      obtain ⟨_, inner, entries, _, each, made⟩ := Source.of_enter_bind success
      exact ⟨members, ending, inner, entries, rfl, each, made⟩
  | _ => exact (Document.refuse_ne_ok _ _ _ success).elim

end Flat

/-- What may be absent is null, or something that can be read. -/
theorem Document.of_readOptional {α : Type} {read : Document → Except Problem α} {d : Document}
    {slot : Option α} (success : d.readOptional read = .ok slot) :
    slot = none ∨ ∃ x, slot = some x ∧ read d = .ok x := by
  unfold readOptional at success
  split at success
  · exact .inl (Except.ok.inj success).symm
  · cases success
  · obtain ⟨x, held, same⟩ := Problem.map_eq_ok success
    exact .inr ⟨x, same.symm, held⟩

/-! ## All flat values -/

/-- What is read as a flat value fits into its document. -/
theorem Flat.fits_of_read {source : Source} {d : Document} (f : Flat) {x : f.Value}
    (read : Flat.read source f d = .ok x) : f.Fits d.nesting x := by
  cases f with
  | scalar s => exact s.fits_of_read read
  | array s =>
      obtain ⟨items, defect, inner, rfl, success⟩ := items_of_readArray read
      have each : ∀ item ∈ (x : List s.Value), s.Fits (Document.itemsNesting items) item := by
        refine forall_of_readItems (fun item inside value held => ?_) success
        have fits := s.fits_of_read held
        exact ⟨fits.1, Nat.le_trans fits.2 (Document.nesting_le_itemsNesting inside)⟩
      constructor
      · exact fun item inside => (each item inside).1
      · refine Nat.succ_le_succ (Document.itemsNesting_le fun written inside => ?_)
        obtain ⟨item, held, rfl⟩ := List.mem_map.mp inside
        exact (each item held).2
  | slots s =>
      obtain ⟨items, defect, inner, rfl, success⟩ := items_of_readArray read
      have each : ∀ slot ∈ (x : List (Option s.Value)),
          ∀ item ∈ slot, s.Fits (Document.itemsNesting items) item := by
        refine forall_of_readItems (fun item inside slot held => ?_) success
        rcases Document.of_readOptional held with rfl | ⟨value, rfl, found⟩
        · exact fun item absent => nomatch absent
        · have fits := s.fits_of_read found
          rintro _ ⟨⟩
          exact ⟨fits.1, Nat.le_trans fits.2 (Document.nesting_le_itemsNesting inside)⟩
      constructor
      · exact fun slot inside item held => (each slot inside item held).1
      · refine Nat.succ_le_succ (Document.itemsNesting_le fun written inside => ?_)
        obtain ⟨slot, held, rfl⟩ := List.mem_map.mp inside
        cases slot with
        | none => exact Nat.zero_le _
        | some item => exact (each _ held item rfl).2
  | map s =>
      obtain ⟨members, ending, inner, entries, rfl, success, made⟩ := members_of_readMap read
      have each : ∀ entry ∈ entries, s.Fits (Document.membersNesting members) entry.2 := by
        refine forall_of_readEntries (fun member inside value held => ?_) success
        have fits := s.fits_of_read held
        exact ⟨fits.1, Nat.le_trans fits.2 (Document.nesting_le_membersNesting inside)⟩
      have distinct : Dict.WellFormed x := made ▸ Dict.wellFormed_ofList entries
      have given : ∀ entry ∈ Dict.entries x, entry ∈ entries := by
        rw [← made]
        exact fun entry inside => Dict.mem_of_mem_ofList inside
      constructor
      · exact ⟨distinct, fun entry inside => (each entry (given entry inside)).1⟩
      · refine Nat.succ_le_succ (Document.membersNesting_le fun written inside => ?_)
        obtain ⟨entry, held, rfl⟩ := List.mem_map.mp inside
        exact (each entry (given entry held)).2

end Sarif
