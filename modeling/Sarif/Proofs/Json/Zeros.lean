import Mathlib.Data.List.Nodup
import Sarif.Proofs.Hash.Folding

/-!
# Stored zeros

Equality of stored values takes the two floating-point zeros for one number, and the structural
hash takes them apart, because it reads the printed text. This is the only difference between
the two: `zeroSigns` lists the signs of the zeros of a value from left to right, equal values
with the same list are identical, and every value with a zero has an equal one of another hash.
-/

namespace Sarif

namespace Binary64

/-- A word is known by its sign and its magnitude. -/
theorem eq_of_sign_of_magnitude {x y : Binary64} (signs : x.negative = y.negative)
    (magnitudes : x.magnitude = y.magnitude) : x = y := by
  obtain ⟨a⟩ := x
  obtain ⟨b⟩ := y
  simp only [negative, magnitude, decide_eq_decide] at signs magnitudes
  have belowA : a.toNat < 2 * signWeight := UInt64.toNat_lt_size a
  have belowB : b.toNat < 2 * signWeight := UInt64.toNat_lt_size b
  have words : a.toNat = b.toNat := by
    unfold signWeight at *
    omega
  rw [UInt64.toNat_inj.mp words]

/-- Numbers that compare equal are identical, or they are both zero. -/
theorem eq_or_isZero_of_sameNumber {x y : Binary64} (same : x.sameNumber y = true) :
    x = y ∨ (x.isZero = true ∧ y.isZero = true) := by
  simp only [sameNumber, Bool.and_eq_true, Bool.or_eq_true, beq_iff_eq] at same
  exact same.2

/-- Zeros of one sign are identical. -/
theorem eq_of_isZero {x y : Binary64} (first : x.isZero = true) (second : y.isZero = true)
    (signs : x.negative = y.negative) : x = y := by
  simp only [isZero, beq_iff_eq] at first second
  exact eq_of_sign_of_magnitude signs (first.trans second.symm)

/-- A zero is one of the two. -/
theorem eq_zero_or_eq_negativeZero {x : Binary64} (isZero : x.isZero = true) :
    x = zero ∨ x = negativeZero := by
  cases sign : x.negative with
  | false => exact .inl (eq_of_isZero isZero rfl sign)
  | true => exact .inr (eq_of_isZero isZero rfl sign)

end Binary64

/-- The sign of a number that is a floating-point zero. -/
def Number.zeroSigns : Number → List Bool
  | integer _ => []
  | float x => if x.isZero then [x.negative] else []

namespace Json

mutual

/-- The signs of the floating-point zeros of a stored value, from left to right. -/
def zeroSigns : Json → List Bool
  | null => []
  | boolean _ => []
  | number n => n.zeroSigns
  | string _ => []
  | array items => itemZeroSigns items
  | object members => memberZeroSigns members

/-- The signs of the zeros of a run of items. -/
def itemZeroSigns : List Json → List Bool
  | [] => []
  | item :: rest => zeroSigns item ++ itemZeroSigns rest

/-- The signs of the zeros of a run of members. -/
def memberZeroSigns : List (String × Json) → List Bool
  | [] => []
  | (_, value) :: rest => zeroSigns value ++ memberZeroSigns rest

end

end Json

/-! ## Equal values with the same signs are identical -/

/-- Equal numbers have equally many zeros, and are identical if the zeros have one sign. -/
theorem Number.same_cases {n m : Number} (same : n.same m = true) :
    n.zeroSigns.length = m.zeroSigns.length ∧ (n.zeroSigns = m.zeroSigns → n = m) := by
  cases n with
  | integer i =>
      cases m with
      | integer j => simpa [Number.same, zeroSigns] using same
      | float y => simp [Number.same] at same
  | float x =>
      cases m with
      | integer j => simp [Number.same] at same
      | float y =>
          obtain rfl | ⟨first, second⟩ := Binary64.eq_or_isZero_of_sameNumber same
          · exact ⟨rfl, fun _ => rfl⟩
          · refine ⟨by simp [zeroSigns, first, second], fun signs => ?_⟩
            have sign : x.negative = y.negative := by
              simpa [zeroSigns, first, second] using signs
            rw [Binary64.eq_of_isZero first second sign]

namespace Json

mutual

/-- Equal values have equally many zeros, and are identical if the zeros have the same signs. -/
theorem same_cases : (x y : Json) → x.same y = true →
    x.zeroSigns.length = y.zeroSigns.length ∧ (x.zeroSigns = y.zeroSigns → x = y)
  | null, y => by cases y <;> simp [same, zeroSigns]
  | boolean b, y => by cases y <;> simp [same, zeroSigns]
  | string s, y => by cases y <;> simp [same, zeroSigns]
  | number n, y => by
      cases y with
      | number m =>
          intro equal
          have := Number.same_cases (by simpa [same] using equal)
          simpa [zeroSigns] using this
      | _ => simp [same]
  | array items, y => by
      cases y with
      | array others =>
          intro equal
          have := sameItems_cases items others (by simpa [same] using equal)
          simpa [zeroSigns] using this
      | _ => simp [same]
  | object members, y => by
      cases y with
      | object others =>
          intro equal
          have := sameMembers_cases members others (by simpa [same] using equal)
          simpa [zeroSigns] using this
      | _ => simp [same]

/-- Equal runs of items have equally many zeros, and are identical if these have the same
signs. -/
theorem sameItems_cases : (items others : List Json) → sameItems items others = true →
    (itemZeroSigns items).length = (itemZeroSigns others).length ∧
      (itemZeroSigns items = itemZeroSigns others → items = others)
  | [], others => by cases others <;> simp [sameItems]
  | item :: rest, [] => by simp [sameItems]
  | item :: rest, other :: more => by
      intro equal
      simp only [sameItems, Bool.and_eq_true] at equal
      obtain ⟨headLength, head⟩ := same_cases item other equal.1
      obtain ⟨tailLength, tail⟩ := sameItems_cases rest more equal.2
      refine ⟨by simp [itemZeroSigns, headLength, tailLength], fun signs => ?_⟩
      obtain ⟨headSigns, tailSigns⟩ := List.append_inj signs headLength
      rw [head headSigns, tail tailSigns]

/-- Equal runs of members have equally many zeros, and are identical if these have the same
signs. -/
theorem sameMembers_cases : (members others : List (String × Json)) →
    sameMembers members others = true →
    (memberZeroSigns members).length = (memberZeroSigns others).length ∧
      (memberZeroSigns members = memberZeroSigns others → members = others)
  | [], others => by cases others <;> simp [sameMembers]
  | (name, value) :: rest, [] => by simp [sameMembers]
  | (name, value) :: rest, (name', value') :: more => by
      intro equal
      simp only [sameMembers, Bool.and_eq_true, beq_iff_eq] at equal
      obtain ⟨headLength, head⟩ := same_cases value value' equal.1.2
      obtain ⟨tailLength, tail⟩ := sameMembers_cases rest more equal.2
      refine ⟨by simp [memberZeroSigns, headLength, tailLength], fun signs => ?_⟩
      obtain ⟨headSigns, tailSigns⟩ := List.append_inj signs headLength
      rw [head headSigns, tail tailSigns, equal.1.1]

end

end Json

/-! ## Well-formed values are equal to themselves -/

/-- A number that is not a NaN is equal to itself. -/
theorem Binary64.sameNumber_self {x : Binary64} (notNaN : x.isNaN = false) :
    x.sameNumber x = true := by
  simp [sameNumber, notNaN]

/-- A finite number is not a NaN. -/
theorem Binary64.isNaN_of_isFinite {x : Binary64} (finite : x.isFinite = true) :
    x.isNaN = false := by
  simp only [isFinite, isNaN, decide_eq_true_eq, decide_eq_false_iff_not] at finite ⊢
  omega

/-- A well-formed number is equal to itself. -/
theorem Number.same_self {n : Number} (wellFormed : n.WellFormed) : n.same n = true := by
  cases n with
  | integer i => simp [Number.same]
  | float x => exact Binary64.sameNumber_self (Binary64.isNaN_of_isFinite wellFormed)

namespace Json

mutual

/-- A well-formed value is equal to itself. -/
theorem same_self : (x : Json) → x.WellFormed → x.same x = true
  | null, _ => rfl
  | boolean _, _ => by simp [same]
  | string _, _ => by simp [same]
  | number n, wellFormed => by
      simpa [same] using Number.same_self wellFormed
  | array items, wellFormed => by
      simpa [same] using sameItems_self items wellFormed
  | object members, wellFormed => by
      simpa [same] using sameMembers_self members wellFormed.2

/-- A well-formed run of items is equal to itself. -/
theorem sameItems_self : (items : List Json) → WellFormedItems items →
    sameItems items items = true
  | [], _ => rfl
  | item :: rest, wellFormed => by
      simp [sameItems, same_self item wellFormed.1, sameItems_self rest wellFormed.2]

/-- A well-formed run of members is equal to itself. -/
theorem sameMembers_self : (members : List (String × Json)) → WellFormedMembers members →
    sameMembers members members = true
  | [], _ => rfl
  | (name, value) :: rest, wellFormed => by
      simp [sameMembers, same_self value wellFormed.1, sameMembers_self rest wellFormed.2]

end

end Json

/-! ## A value with a zero has an equal one of another hash -/

open HashCode

/-- The texts of the two zeros differ in their hashes. -/
theorem Number.zero_text_hash_ne :
    ofString (float .zero).text ≠ ofString (float .negativeZero).text := by
  have positive : (float .zero).text = "0.0" := rfl
  have negative : (float .negativeZero).text = "-0.0" := rfl
  rw [positive, negative]
  decide +kernel

/-- A zero is equal to the other one, whose text has another hash. -/
theorem Number.exists_hash_ne {n : Number} (zero : n.zeroSigns ≠ []) :
    ∃ m : Number, m.WellFormed ∧ n.same m = true ∧ ofString n.text ≠ ofString m.text := by
  cases n with
  | integer i => exact absurd rfl zero
  | float x =>
      have isZero : x.isZero = true := by
        by_contra other
        exact zero (by simp [zeroSigns, other])
      obtain rfl | rfl := Binary64.eq_zero_or_eq_negativeZero isZero
      · exact ⟨float .negativeZero, rfl, rfl, zero_text_hash_ne⟩
      · exact ⟨float .zero, rfl, rfl, zero_text_hash_ne.symm⟩

namespace Json

mutual

/-- A value with a zero is equal to one of another hash. -/
theorem exists_hash_ne : (x : Json) → x.WellFormed → x.zeroSigns ≠ [] →
    ∃ y : Json, y.WellFormed ∧ x.same y = true ∧ x.hash ≠ y.hash
  | null, _, zero => absurd rfl zero
  | boolean _, _, zero => absurd rfl zero
  | string _, _, zero => absurd rfl zero
  | number n, _, zero => by
      obtain ⟨m, wellFormed, same, apart⟩ := Number.exists_hash_ne (n := n) zero
      exact ⟨number m, wellFormed, by simpa [Json.same] using same, apart⟩
  | array items, wellFormed, zero => by
      obtain ⟨others, others_wellFormed, same, apart⟩ :=
        exists_foldItems_ne items wellFormed zero
      exact ⟨array others, others_wellFormed, by simpa [Json.same] using same, apart seed⟩
  | object members, wellFormed, zero => by
      obtain ⟨others, names, others_wellFormed, same, apart⟩ :=
        exists_foldMembers_ne members wellFormed.2 zero
      refine ⟨object others, ⟨?_, others_wellFormed⟩, by simpa [Json.same] using same, apart 0⟩
      have sorted := List.pairwise_map.mpr wellFormed.1
      rw [← names] at sorted
      exact List.pairwise_map.mp sorted

/-- A run of items with a zero is equal to one that folds differently into every hash. -/
theorem exists_foldItems_ne : (items : List Json) → WellFormedItems items →
    itemZeroSigns items ≠ [] →
    ∃ others : List Json, WellFormedItems others ∧ sameItems items others = true ∧
      ∀ running, foldItems running items ≠ foldItems running others
  | [], _, zero => absurd rfl zero
  | item :: rest, wellFormed, zero => by
      by_cases here : item.zeroSigns = []
      · have later : itemZeroSigns rest ≠ [] := by
          simpa [itemZeroSigns, here] using zero
        obtain ⟨more, more_wellFormed, same, apart⟩ :=
          exists_foldItems_ne rest wellFormed.2 later
        refine ⟨item :: more, ⟨wellFormed.1, more_wellFormed⟩, ?_, fun _ => apart _⟩
        simp [sameItems, same_self item wellFormed.1, same]
      · obtain ⟨other, other_wellFormed, same, apart⟩ := exists_hash_ne item wellFormed.1 here
        refine ⟨other :: rest, ⟨other_wellFormed, wellFormed.2⟩, ?_, fun running equal => ?_⟩
        · simp [sameItems, same, sameItems_self rest wellFormed.2]
        · exact apart (combine_right_injective (foldItems_injective rest equal))

/-- A run of members with a zero is equal to one that lies differently over every hash. -/
theorem exists_foldMembers_ne : (members : List (String × Json)) →
    WellFormedMembers members → memberZeroSigns members ≠ [] →
    ∃ others : List (String × Json), others.map Prod.fst = members.map Prod.fst ∧
      WellFormedMembers others ∧ sameMembers members others = true ∧
      ∀ running, foldMembers running members ≠ foldMembers running others
  | [], _, zero => absurd rfl zero
  | (name, value) :: rest, wellFormed, zero => by
      by_cases here : value.zeroSigns = []
      · have later : memberZeroSigns rest ≠ [] := by
          simpa [memberZeroSigns, here] using zero
        obtain ⟨more, names, more_wellFormed, same, apart⟩ :=
          exists_foldMembers_ne rest wellFormed.2 later
        refine ⟨(name, value) :: more, by simp [names], ⟨wellFormed.1, more_wellFormed⟩, ?_,
          fun _ => apart _⟩
        simp [sameMembers, same_self value wellFormed.1, same]
      · obtain ⟨other, other_wellFormed, same, apart⟩ := exists_hash_ne value wellFormed.1 here
        refine ⟨(name, other) :: rest, rfl, ⟨other_wellFormed, wellFormed.2⟩, ?_,
          fun running equal => ?_⟩
        · simp [sameMembers, same, sameMembers_self rest wellFormed.2]
        · exact apart (xor_left_injective (foldMembers_injective rest equal))

end

end Json
end Sarif
