import Sarif.Proofs.Number.Scaling
import Sarif.Proofs.Node.WellFormed
import Sarif.Proofs.Reading.Admission

/-!
# What is read as a stored value

Whatever is read as a number or as a stored value is well-formed, and the document that it is
written as nests no deeper than the one it was read from. A number that overflows is a defect of the
text, and the members of an object are put into order while they are read.
-/

namespace Sarif

/-! ## Numbers -/

namespace Numeral

/-- The value that is read from a numeral is finite, whatever the source. -/
theorem isFinite_of_source {source : Source} {n : Numeral} {x : Binary64}
    (found : source.float? n = some x) : x.isFinite = true := by
  cases source with
  | text room => exact isFinite_of_float? found
  | stored => exact isFinite_of_nearest? found

/-- An integer of a numeral is kept as an integer. -/
theorem bounds_of_integer? {n : Numeral} {i : Int} (integer : n.integer? = some i) :
    Number.minInteger ≤ i ∧ i ≤ Number.maxInteger := by
  unfold integer? Number.minInteger Number.maxInteger at integer
  split at integer
  · split at integer
    · next bounds =>
        obtain rfl := Option.some.inj integer
        exact ⟨bounds.2, by unfold Number.maxInteger; omega⟩
    · cases integer
  · split at integer
    · next bound =>
        obtain rfl := Option.some.inj integer
        exact ⟨by unfold Number.minInteger; omega, bound⟩
    · cases integer

/-- What a numeral is read as is its number. -/
theorem numberOr_of_read {source : Source} {n : Numeral} {value : Number}
    (read : n.read source = .ok value) : n.numberOr (source.float? n) = some value := by
  unfold Numeral.read at read
  split at read
  · next other found => exact Except.ok.inj read ▸ found
  · cases read

/-- The number of a numeral is well-formed. -/
theorem wellFormed_of_read {source : Source} {n : Numeral} {value : Number}
    (read : n.read source = .ok value) : value.WellFormed := by
  have found := numberOr_of_read read
  unfold numberOr at found
  split at found
  · next i integer =>
      obtain rfl := Option.some.inj found
      split at integer
      · exact bounds_of_integer? integer
      · cases integer
  · obtain ⟨x, float, rfl⟩ := Option.map_eq_some_iff.mp found
    exact isFinite_of_source float

end Numeral

/-- A well-formed number is finite as a floating-point value. -/
theorem Number.isFinite_toFloat {n : Number} (wellFormed : n.WellFormed) :
    n.toFloat.isFinite = true := by
  cases n with
  | float x => exact wellFormed
  | integer i =>
      refine Binary64.isFinite_ofMagnitude _ ?_
      cases rounded : Binary64.roundQuotient i.natAbs 1 with
      | none => decide
      | some magnitude => exact Binary64.lt_of_roundQuotient rounded

/-! ## Stored values -/

namespace Json

/-- A stored value that is well-formed and nests no deeper than a bound. -/
def Fits (bound : Nat) (x : Json) : Prop :=
  x.WellFormed ∧ x.document.nesting ≤ bound

/-- Items that fit are well-formed as a run. -/
theorem wellFormedItems_of_fits {bound : Nat} {items : List Json}
    (each : ∀ item ∈ items, item.Fits bound) :
    WellFormedItems items ∧ Document.itemsNesting (itemDocuments items) ≤ bound := by
  induction items with
  | nil => exact ⟨trivial, Nat.zero_le _⟩
  | cons item rest inductionHypothesis =>
      have head := each item (List.mem_cons_self ..)
      have tail := inductionHypothesis fun other member =>
        each other (List.mem_cons_of_mem _ member)
      exact ⟨⟨head.1, tail.1⟩, Nat.max_le.mpr ⟨head.2, tail.2⟩⟩

/-- Members that fit are well-formed as a run. -/
theorem wellFormedMembers_of_fits {bound : Nat} {members : List (String × Json)}
    (each : ∀ member ∈ members, member.2.Fits bound) :
    WellFormedMembers members ∧
      Document.membersNesting (memberDocuments members) ≤ bound := by
  induction members with
  | nil => exact ⟨trivial, Nat.zero_le _⟩
  | cons member rest inductionHypothesis =>
      have head := each member (List.mem_cons_self ..)
      have tail := inductionHypothesis fun other inside =>
        each other (List.mem_cons_of_mem _ inside)
      exact ⟨⟨head.1, tail.1⟩, Nat.max_le.mpr ⟨head.2, tail.2⟩⟩

/-- A member that is put into its place stands beside members that were there. -/
theorem mem_insertMember {name : String} {value : Json} {member : String × Json}
    {members : List (String × Json)} (inside : member ∈ insertMember name value members) :
    member = (name, value) ∨ member ∈ members := by
  induction members with
  | nil => exact .inl (List.mem_singleton.mp inside)
  | cons first rest inductionHypothesis =>
      obtain ⟨other, held⟩ := first
      rw [insertMember] at inside
      split at inside
      · exact List.mem_cons.mp inside
      split at inside
      · exact (List.mem_cons.mp inside).imp id (List.mem_cons_of_mem _)
      · rcases List.mem_cons.mp inside with rfl | later
        · exact .inr (List.mem_cons_self ..)
        · exact (inductionHypothesis later).imp id (List.mem_cons_of_mem _)

/-- Members stay sorted when one is put into its place. -/
theorem sortedNames_insertMember (name : String) (value : Json) {members : List (String × Json)}
    (sorted : SortedNames members) : SortedNames (insertMember name value members) := by
  induction members with
  | nil => exact List.pairwise_singleton _ _
  | cons first rest inductionHypothesis =>
      obtain ⟨other, held⟩ := first
      obtain ⟨after, tail⟩ := List.pairwise_cons.mp sorted
      rw [insertMember]
      split
      · next before =>
          refine List.pairwise_cons.mpr ⟨fun member inside => ?_, sorted⟩
          rcases List.mem_cons.mp inside with rfl | later
          · exact before
          · exact String.lt_trans before (after member later)
      split
      · next same =>
          subst same
          exact List.pairwise_cons.mpr ⟨after, tail⟩
      · next notBefore different =>
          have before : other < name :=
            Std.lt_of_le_of_ne (String.not_lt.mp notBefore) (Ne.symm different)
          refine List.pairwise_cons.mpr ⟨fun member inside => ?_, inductionHypothesis tail⟩
          rcases mem_insertMember inside with rfl | held
          · exact before
          · exact after member held

/-- Members that are put into their places one by one are sorted. -/
theorem sortedNames_sortMembers (members : List (String × Json)) :
    SortedNames (sortMembers members) := by
  refine List.foldlRecOn members _ List.Pairwise.nil ?_
  intro before sorted member _
  exact sortedNames_insertMember member.1 member.2 sorted

/-- A member of a sorted list was in the list before it was sorted. -/
theorem mem_of_mem_sortMembers {member : String × Json} {members : List (String × Json)}
    (inside : member ∈ sortMembers members) : member ∈ members := by
  have given : ∀ held ∈ sortMembers members, held ∈ members := by
    refine List.foldlRecOn (motive := fun sorted => ∀ held ∈ sorted, held ∈ members) members _
      (fun _ none => absurd none List.not_mem_nil) ?_
    intro sorted before new isGiven held placed
    rcases mem_insertMember placed with rfl | earlier
    · exact isGiven
    · exact before held earlier
  exact given member inside

mutual

/-- What is read as a stored value is well-formed and nests no deeper than its document. -/
theorem fits_of_read : (d : Document) → (source : Source) → (x : Json) →
    Json.read source d = .ok x → x.Fits d.nesting
  | .null, _, x, read => by
      obtain rfl := Except.ok.inj read
      exact ⟨trivial, Nat.zero_le _⟩
  | .boolean _, _, x, read => by
      obtain rfl := Except.ok.inj read
      exact ⟨trivial, Nat.zero_le _⟩
  | .numeral n, _, x, read => by
      obtain ⟨value, number, rfl⟩ := Problem.map_eq_ok read
      exact ⟨Numeral.wellFormed_of_read number, Nat.zero_le _⟩
  | .literal l, _, x, read => by
      obtain ⟨value, _, rfl⟩ := Problem.map_eq_ok read
      exact ⟨trivial, Nat.zero_le _⟩
  | .array items defect, source, x, read => by
      obtain ⟨_, inner, values, _, each, rfl⟩ := Source.of_enter_bind read
      obtain ⟨wellFormed, bound⟩ :=
        wellFormedItems_of_fits (fits_of_readItems items inner values each)
      exact ⟨wellFormed, Nat.succ_le_succ bound⟩
  | .object members ending, source, x, read => by
      obtain ⟨_, inner, values, _, each, rfl⟩ := Source.of_enter_bind read
      have fits := fits_of_readMembers members inner values each
      obtain ⟨wellFormed, bound⟩ := wellFormedMembers_of_fits fun member inside =>
        fits member (mem_of_mem_sortMembers inside)
      exact ⟨⟨sortedNames_sortMembers values, wellFormed⟩, Nat.succ_le_succ bound⟩
  | .broken _, _, x, read => by cases read

/-- What is read from a run of items is well-formed and nests no deeper than the run. -/
theorem fits_of_readItems : (items : List Document) → (source : Source) → (values : List Json) →
    Json.readItems source items = .ok values →
    ∀ value ∈ values, value.Fits (Document.itemsNesting items)
  | [], _, values, read, value, member => by
      obtain rfl := Except.ok.inj read
      cases member
  | item :: rest, source, values, read, value, member => by
      obtain ⟨first, head, read⟩ := Problem.bind_eq_ok read
      obtain ⟨others, tail, read⟩ := Problem.bind_eq_ok read
      obtain rfl := Except.ok.inj read
      rcases List.mem_cons.mp member with rfl | later
      · have fits := fits_of_read item source value head
        exact ⟨fits.1, Nat.le_trans fits.2 (Nat.le_max_left ..)⟩
      · have fits := fits_of_readItems rest source others tail value later
        exact ⟨fits.1, Nat.le_trans fits.2 (Nat.le_max_right ..)⟩

/-- What is read from a run of members is well-formed and nests no deeper than the run. -/
theorem fits_of_readMembers : (members : List (Literal × Document)) → (source : Source) →
    (values : List (String × Json)) → Json.readMembers source members = .ok values →
    ∀ member ∈ values, member.2.Fits (Document.membersNesting members)
  | [], _, values, read, member, inside => by
      obtain rfl := Except.ok.inj read
      cases inside
  | (name, value) :: rest, source, values, read, member, inside => by
      obtain ⟨key, _, read⟩ := Problem.bind_eq_ok read
      obtain ⟨first, head, read⟩ := Problem.bind_eq_ok read
      obtain ⟨others, tail, read⟩ := Problem.bind_eq_ok read
      obtain rfl := Except.ok.inj read
      rcases List.mem_cons.mp inside with rfl | later
      · have fits := fits_of_read value source first head
        exact ⟨fits.1, Nat.le_trans fits.2 (Nat.le_max_left ..)⟩
      · have fits := fits_of_readMembers rest source others tail member later
        exact ⟨fits.1, Nat.le_trans fits.2 (Nat.le_max_right ..)⟩

end

end Json
end Sarif
