import Sarif.Proofs.Number.Rounding
import Sarif.Proofs.Node.WellFormed

/-!
# Numbers read back

A well-formed number is the number that the numeral it is written as denotes. For an integer this
is a matter of ranges. For a floating-point value it rests on the shortest digits reading back,
which they do however the search for them ends, and on both written forms, plain and with an
exponent, denoting the decimal that was chosen.
-/

namespace Sarif
namespace Binary64

/-! ## The shortest digits -/

/-- A power of two is below a power of a larger base when it has no more bits. -/
theorem two_pow_le_pow {bits base exponent n : Nat} (large : 2 ^ bits ≤ base)
    (enough : n ≤ bits * exponent) : 2 ^ n ≤ base ^ exponent := by
  refine Nat.le_trans (Nat.pow_le_pow_right (by decide) enough) ?_
  rw [Nat.pow_mul]
  exact Nat.pow_le_pow_left large exponent

/-- A power of ten is below a power of five with half as many factors more. -/
theorem ten_pow_le_five_pow {exponent more : Nat} (enough : exponent ≤ 2 * more) :
    10 ^ exponent ≤ 5 ^ (exponent + more) := by
  calc 10 ^ exponent = 5 ^ exponent * 2 ^ exponent := Nat.mul_pow 5 2 exponent
    _ ≤ 5 ^ exponent * 5 ^ more :=
        Nat.mul_le_mul_left _ (two_pow_le_pow (show 2 ^ 2 ≤ 5 by decide) enough)
    _ = 5 ^ (exponent + more) := (Nat.pow_add ..).symm

/-- A number below a power of ten stays below with as many factors of five as of ten. -/
theorem mul_five_pow_lt {n exponent more : Nat} (below : n < 10 ^ exponent) :
    n * 5 ^ more < 10 ^ (exponent + more) := by
  rw [Nat.pow_add]
  refine Nat.lt_of_lt_of_le (Nat.mul_lt_mul_of_pos_right below (Nat.pow_pos (by decide))) ?_
  exact Nat.mul_le_mul_left _ (Nat.pow_le_pow_left (by decide) more)

/-- The binade of a finite value is bounded. -/
theorem binade_le {x : Binary64} (finite : x.isFinite = true) : x.binade ≤ 2045 := by
  have bounded : x.magnitude < infinityMagnitude := of_decide_eq_true finite
  unfold infinityMagnitude binadeSize at bounded
  unfold binade binadeSize
  omega

/-- The exact expansion of a value other than zero has a coefficient other than zero. -/
theorem exactDecimal_coefficient_pos {x : Binary64} (nonzero : x.isZero = false) :
    0 < x.exactDecimal.coefficient := by
  have magnitude : x.magnitude ≠ 0 := by simpa [isZero] using nonzero
  have significand : 0 < x.significand := by
    obtain ⟨_, whole, _⟩ | ⟨normal, _, _⟩ := significand_cases x <;> omega
  exact Nat.mul_pos (Nat.mul_pos significand (Nat.two_pow_pos _)) (Nat.pow_pos (by decide))

/-- The exact expansion of a value other than zero does not begin too far behind the point. -/
theorem le_exactDecimal_magnitude {x : Binary64} (nonzero : x.isZero = false) :
    -400 ≤ x.exactDecimal.magnitude := by
  by_contra below
  have positive := exactDecimal_coefficient_pos nonzero
  have factor : 5 ^ (1074 - x.binade) ≤ x.exactDecimal.coefficient := by
    have whole : 0 < x.numerator := Nat.pos_of_mul_pos_right positive
    exact Nat.le_mul_of_pos_left _ whole
  simp only [Decimal.magnitude, exactDecimal] at below positive
  have digits : Decimal.digitCount x.exactDecimal.coefficient ≤ 1074 - x.binade - 400 := by
    simp only [exactDecimal]
    omega
  have count_pos := Decimal.digitCount_pos x.exactDecimal.coefficient
  obtain ⟨k, split⟩ : ∃ k, 1074 - x.binade = k + 400 := ⟨1074 - x.binade - 400, by omega⟩
  have small := (Decimal.digitCount_le_iff (by omega)).mp digits
  have reached : 10 ^ k ≤ 5 ^ (k + 400) := ten_pow_le_five_pow (by omega)
  rw [split, Nat.add_sub_cancel] at small
  rw [split] at factor
  omega

/-- The exact expansion of a finite value does not begin too far before the point. -/
theorem exactDecimal_magnitude_le {x : Binary64} (finite : x.isFinite = true) :
    x.exactDecimal.magnitude ≤ 400 := by
  have small : x.significand < 2 ^ 53 := by
    obtain ⟨_, _, small⟩ | ⟨_, small, _⟩ := significand_cases x <;> exact small
  have binade := binade_le finite
  have whole : x.numerator < 10 ^ 400 := by
    calc x.numerator < 2 ^ 53 * 2 ^ (x.binade - 1074) :=
          Nat.mul_lt_mul_of_pos_right small (Nat.two_pow_pos _)
      _ = 2 ^ (53 + (x.binade - 1074)) := (Nat.pow_add ..).symm
      _ ≤ 10 ^ 400 := two_pow_le_pow (show 2 ^ 3 ≤ 10 by decide) (by omega)
  have coefficient : x.exactDecimal.coefficient < 10 ^ (400 + (1074 - x.binade)) :=
    mul_five_pow_lt whole
  have digits := (Decimal.digitCount_le_iff (by omega)).mpr coefficient
  simp only [Decimal.magnitude, exactDecimal] at digits ⊢
  omega

/-- A quotient by a power of two is a decimal with as many places. -/
theorem roundQuotient_of_binary (n places : Nat) :
    roundQuotient (⟨n * 5 ^ places, -places⟩ : Decimal).numerator
        (⟨n * 5 ^ places, -places⟩ : Decimal).denominator = roundQuotient n (2 ^ places) := by
  refine roundQuotient_eq_of_ratio (Nat.pow_pos (by decide)) (Nat.two_pow_pos _) ?_
  have whole : (-(places : Int)).toNat = 0 := by omega
  simp only [Decimal.numerator, Decimal.denominator, whole, Int.neg_neg, Int.toNat_natCast,
    Nat.pow_zero, Nat.mul_one, Nat.mul_assoc, ← Nat.mul_pow]

/-- The exact expansion of a finite value other than zero reads back. -/
theorem roundDecimal_exactDecimal {x : Binary64} (finite : x.isFinite = true)
    (nonzero : x.isZero = false) : roundDecimal x.exactDecimal = some x.magnitude := by
  have coefficient := (exactDecimal_coefficient_pos nonzero).ne'
  have low := le_exactDecimal_magnitude nonzero
  have high := exactDecimal_magnitude_le finite
  have quotient : roundQuotient x.exactDecimal.numerator x.exactDecimal.denominator =
      roundQuotient x.numerator x.denominator := by
    have expansion : x.exactDecimal =
        ⟨x.numerator * 5 ^ (1074 - x.binade), -((1074 - x.binade : Nat) : Int)⟩ := rfl
    have power : x.denominator = 2 ^ (1074 - x.binade) := rfl
    rw [expansion, power]
    exact roundQuotient_of_binary _ _
  rw [roundDecimal, if_neg coefficient, if_neg (by omega), if_neg (by omega), quotient]
  exact roundQuotient_self finite

/-- A neighbour on a grid is only taken if it reads back. -/
theorem roundDecimal_neighbour? {x : Binary64} {count : Nat} {d : Decimal}
    (found : x.neighbour? count = some d) : roundDecimal d = some x.magnitude := by
  simp only [neighbour?, readsBack, beq_iff_eq] at found
  split at found
  · next reads => exact Option.some.inj found ▸ reads
  · split at found
    · next reads => exact Option.some.inj found ▸ reads
    · split at found
      · next reads => exact Option.some.inj found ▸ reads
      · cases found

/-- What the search finds reads back. -/
theorem roundDecimal_search? {x : Binary64} {d : Decimal} (found : x.search? = some d) :
    roundDecimal d = some x.magnitude := by
  obtain ⟨count, _, here⟩ := List.exists_of_findSome?_eq_some found
  exact roundDecimal_neighbour? here

/-- The shortest digits of a finite value read back to it. -/
theorem roundDecimal_shortest {x : Binary64} (finite : x.isFinite = true) :
    roundDecimal x.shortest = some x.magnitude := by
  cases zero : x.isZero with
  | true =>
      have none : x.magnitude = 0 := by simpa [isZero] using zero
      simp [shortest, zero, none, roundDecimal]
  | false =>
      simp only [shortest, zero, Bool.false_eq_true, if_false, Decimal.trim, roundDecimal_trimBelow]
      cases found : x.search? with
      | none => exact roundDecimal_exactDecimal finite zero
      | some d => exact roundDecimal_search? found

/-- A word is put together from its sign and its magnitude. -/
theorem ofMagnitude_self (x : Binary64) : ofMagnitude x.negative x.magnitude = x := by
  obtain ⟨bits⟩ := x
  have bounded : bits.toNat < 2 * signWeight := UInt64.toNat_lt_size bits
  have word : bits.toNat % signWeight + (if signWeight ≤ bits.toNat then signWeight else 0) =
      bits.toNat := by
    unfold signWeight at *
    split <;> omega
  simp [ofMagnitude, magnitude, negative, word]

end Binary64

/-! ## Numerals -/

namespace Numeral

/-- The plain form of a decimal rounds as the decimal does. -/
theorem roundDecimal_plain (negative : Bool) (d : Decimal) :
    Binary64.roundDecimal (plain negative d).decimal = Binary64.roundDecimal d := by
  obtain ⟨coefficient, scale⟩ := d
  by_cases fractional : scale < 0
  · -- The digits behind the point are just as many as the scale says.
    obtain ⟨places, rfl⟩ : ∃ places : Nat, scale = -places := ⟨scale.natAbs, by omega⟩
    have length : (paddedDigits places (coefficient % 10 ^ places)).length = places :=
      length_paddedDigits_of_lt (by omega) (Nat.mod_lt _ (Nat.pow_pos (by decide)))
    have whole : (-(places : Int)).toNat = 0 := by omega
    have same : (plain negative ⟨coefficient, -places⟩).decimal = ⟨coefficient, -places⟩ := by
      simp only [plain, decimal, Decimal.numerator, Decimal.denominator, Int.neg_neg,
        Int.toNat_natCast, whole, Nat.pow_zero, Nat.mul_one, ofDigitChars_paddedDigits, length,
        Nat.div_add_mod', Option.getD_none, Int.zero_sub]
    rw [same]
  · -- A single zero stands behind the point.
    obtain ⟨zeros, rfl⟩ : ∃ zeros : Nat, scale = zeros := ⟨scale.natAbs, by omega⟩
    have moved := Binary64.roundDecimal_shift coefficient (zeros + 1) zeros
    have place : (zeros : Int) - (zeros + 1 : Nat) = -1 := by omega
    have none : (-(zeros : Int)).toNat = 0 := by omega
    have length : (paddedDigits 0 0).length = 1 := rfl
    rw [place] at moved
    rw [← moved]
    simp only [plain, decimal, Decimal.numerator, Decimal.denominator, Int.toNat_natCast, none,
      Nat.pow_zero, Nat.div_one, Nat.mod_one, ofDigitChars_paddedDigits, length, Nat.add_zero,
      Option.getD_none, Nat.pow_succ, Nat.mul_assoc]
    rfl

/-- The form with an exponent denotes the decimal that it is made of. -/
theorem decimal_scientific (negative : Bool) (d : Decimal) :
    (scientific negative d).decimal = d := by
  obtain ⟨coefficient, scale⟩ := d
  have count_pos := Decimal.digitCount_pos coefficient
  by_cases single : Decimal.digitCount coefficient - 1 = 0
  · simp only [scientific, decimal, single, if_true, Nat.ofDigitChars_nil, Nat.pow_zero,
      Nat.div_one, Option.getD_some, Decimal.magnitude, List.length_nil, Decimal.mk.injEq,
      true_and]
    omega
  · have length := length_paddedDigits_of_lt (Nat.pos_of_ne_zero single)
      (Nat.mod_lt coefficient (Nat.pow_pos (show 0 < 10 by decide)))
    simp only [scientific, decimal, single, if_false, ofDigitChars_paddedDigits, length,
      Nat.div_add_mod', Option.getD_some, Decimal.magnitude, Decimal.mk.injEq, true_and]
    omega

/-- The numeral of a finite value stands for the value. -/
theorem nearest?_ofFloat {x : Binary64} (finite : x.isFinite = true) :
    (ofFloat x).nearest? = some x := by
  have reads := Binary64.roundDecimal_shortest finite
  simp only [ofFloat]
  split
  · rw [nearest?, roundDecimal_plain, reads, Option.map_some]
    exact congrArg some x.ofMagnitude_self
  · rw [nearest?, decimal_scientific, reads, Option.map_some]
    exact congrArg some x.ofMagnitude_self

/-- The numeral of a floating-point value is not spelled as an integer. -/
theorem integral_ofFloat (x : Binary64) : (ofFloat x).integral = false := by
  simp only [ofFloat]
  split
  · simp [plain, integral, paddedDigits_ne_nil]
  · simp [scientific, integral]

/-- The numeral of an integer stands for the integer, if it is one that is kept. -/
theorem integer?_ofInteger {i : Int} (kept : Number.minInteger ≤ i ∧ i ≤ Number.maxInteger) :
    (ofInteger i).integer? = some i := by
  unfold Number.minInteger Number.maxInteger at kept
  by_cases negative : i < 0
  · have whole : -(i.natAbs : Int) = i := by omega
    have reach : 0 < i.natAbs ∧ Number.minInteger ≤ -(i.natAbs : Int) := by
      unfold Number.minInteger
      omega
    simp only [ofInteger, integer?, negative, decide_true, if_true]
    rw [if_pos reach, whole]
  · have whole : (i.natAbs : Int) = i := by omega
    have reach : (i.natAbs : Int) ≤ Number.maxInteger := by
      unfold Number.maxInteger
      omega
    simp only [ofInteger, integer?, negative, decide_false, Bool.false_eq_true, if_false]
    rw [if_pos reach, whole]

end Numeral

/-- What is written for a floating-point value stands for the one that is found in it. -/
theorem Numeral.numberOr_ofFloat (x : Binary64) (found : Option Binary64) :
    (ofFloat x).numberOr found = found.map .float := by
  simp only [numberOr, integral_ofFloat, Bool.false_eq_true, if_false]

namespace Number

/-- A number is that of its numeral, if its floating-point value is found again. -/
theorem numberOr_numeral {float? : Numeral → Option Binary64} {n : Number}
    (wellFormed : n.WellFormed) (readsBack : n.ReadsBack float?) :
    n.numeral.numberOr (float? n.numeral) = some n := by
  cases n with
  | integer i =>
      have integral : (Numeral.ofInteger i).integral = true := rfl
      simp only [numeral, Numeral.numberOr, integral, if_true,
        Numeral.integer?_ofInteger wellFormed]
  | float x =>
      have found : float? (Numeral.ofFloat x) = some x := readsBack
      rw [numeral, Numeral.numberOr_ofFloat, found, Option.map_some]

/-- The value nearest to what is written for a well-formed number is the number itself. -/
theorem readsBack_nearest {n : Number} (wellFormed : n.WellFormed) :
    n.ReadsBack Numeral.nearest? := by
  cases n with
  | integer i => trivial
  | float x => exact Numeral.nearest?_ofFloat wellFormed

/-- A well-formed number is the number of its numeral. -/
theorem number?_numeral {n : Number} (wellFormed : n.WellFormed) : n.numeral.number? = some n :=
  numberOr_numeral wellFormed (readsBack_nearest wellFormed)

end Number
end Sarif
