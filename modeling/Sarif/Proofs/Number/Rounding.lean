import Sarif.Number.Shortest
import Sarif.Proofs.Number.Digits

/-!
# Rounding to the nearest word

What rounding does depends on the number alone, not on how it is written as a quotient or as a
decimal, and a number that is a finite value already rounds to itself. The shortest digits of a
finite value therefore read back to it, and so does every other decimal of the same number.
-/

namespace Sarif
namespace Binary64

/-! ## What is rounded is below infinity -/

/-- A rounded quotient is below infinity. -/
theorem lt_of_roundQuotient {numerator denominator magnitude : Nat}
    (rounded : roundQuotient numerator denominator = some magnitude) :
    magnitude < infinityMagnitude := by
  unfold roundQuotient at rounded
  dsimp only at rounded
  split at rounded
  · next below => exact Option.some.inj rounded ▸ below
  · cases rounded

/-- A rounded decimal is below infinity. -/
theorem lt_of_roundDecimal {d : Decimal} {magnitude : Nat}
    (rounded : roundDecimal d = some magnitude) : magnitude < infinityMagnitude := by
  unfold roundDecimal at rounded
  split at rounded
  · exact Option.some.inj rounded ▸ (by decide : 0 < infinityMagnitude)
  split at rounded
  · exact Option.some.inj rounded ▸ (by decide : 0 < infinityMagnitude)
  split at rounded
  · cases rounded
  · exact lt_of_roundQuotient rounded

/-! ## Rounding depends on the quotient alone -/

/-- Rounding a quotient does not see a common factor. -/
theorem roundHalfEven_mul_right {factor : Nat} (positive : 0 < factor)
    (numerator denominator : Nat) :
    roundHalfEven (numerator * factor) (denominator * factor) =
      roundHalfEven numerator denominator := by
  have twice : 2 * (numerator % denominator * factor) = 2 * (numerator % denominator) * factor :=
    (Nat.mul_assoc ..).symm
  have below : 2 * (numerator % denominator) * factor < denominator * factor ↔
      2 * (numerator % denominator) < denominator := Nat.mul_lt_mul_right positive
  have above : denominator * factor < 2 * (numerator % denominator) * factor ↔
      denominator < 2 * (numerator % denominator) := Nat.mul_lt_mul_right positive
  simp only [roundHalfEven, Nat.mul_div_mul_right _ _ positive, Nat.mul_mod_mul_right, twice,
    below, above]

/-- A whole quotient is rounded to itself. -/
theorem roundHalfEven_mul_self {denominator : Nat} (positive : 0 < denominator) (n : Nat) :
    roundHalfEven (n * denominator) denominator = n := by
  simp [roundHalfEven, Nat.mul_div_cancel _ positive, positive]

/-- The magnitude nearest to a quotient does not see a common factor. -/
theorem roundQuotient_mul_right {factor : Nat} (positive : 0 < factor)
    (numerator denominator : Nat) :
    roundQuotient (numerator * factor) (denominator * factor) =
      roundQuotient numerator denominator := by
  have units : numerator * factor * 2 ^ 1074 = numerator * 2 ^ 1074 * factor :=
    Nat.mul_right_comm ..
  have steps (shift : Nat) : denominator * factor * 2 ^ shift = denominator * 2 ^ shift * factor :=
    Nat.mul_right_comm ..
  simp only [roundQuotient, units, steps, Nat.mul_div_mul_right _ _ positive,
    roundHalfEven_mul_right positive]

/-- Equal quotients have the same nearest magnitude. -/
theorem roundQuotient_eq_of_ratio {n d m e : Nat} (positive : 0 < d) (positive' : 0 < e)
    (ratio : n * e = m * d) : roundQuotient n d = roundQuotient m e := by
  calc roundQuotient n d = roundQuotient (n * e) (d * e) :=
        (roundQuotient_mul_right positive' n d).symm
    _ = roundQuotient (m * d) (e * d) := by rw [ratio, Nat.mul_comm d e]
    _ = roundQuotient m e := roundQuotient_mul_right positive m e

/-! ## Decimals of one number -/

/-- Zeros moved from the scale of a decimal to its coefficient do not change its nearest
magnitude. -/
theorem roundDecimal_shift (coefficient zeros : Nat) (scale : Int) :
    roundDecimal ⟨coefficient * 10 ^ zeros, scale - zeros⟩ = roundDecimal ⟨coefficient, scale⟩ := by
  by_cases none : coefficient = 0
  · simp [roundDecimal, none]
  · have positive : 0 < coefficient := Nat.pos_of_ne_zero none
    have some' : coefficient * 10 ^ zeros ≠ 0 :=
      Nat.mul_ne_zero none (Nat.pow_pos (by decide)).ne'
    have magnitude : (⟨coefficient * 10 ^ zeros, scale - zeros⟩ : Decimal).magnitude =
        (⟨coefficient, scale⟩ : Decimal).magnitude := by
      simp only [Decimal.magnitude, Decimal.digitCount_mul_pow positive]
      omega
    have quotient : roundQuotient (coefficient * 10 ^ zeros * 10 ^ (scale - zeros).toNat)
          (10 ^ (-(scale - zeros)).toNat) =
        roundQuotient (coefficient * 10 ^ scale.toNat) (10 ^ (-scale).toNat) := by
      refine roundQuotient_eq_of_ratio (Nat.pow_pos (by decide)) (Nat.pow_pos (by decide)) ?_
      have exponents : zeros + (scale - zeros).toNat + (-scale).toNat =
          scale.toNat + (-(scale - zeros)).toNat := by omega
      calc coefficient * 10 ^ zeros * 10 ^ (scale - zeros).toNat * 10 ^ (-scale).toNat
          = coefficient * 10 ^ (zeros + (scale - zeros).toNat + (-scale).toNat) := by
            rw [Nat.pow_add, Nat.pow_add]; ring
        _ = coefficient * 10 ^ scale.toNat * 10 ^ (-(scale - zeros)).toNat := by
            rw [exponents, Nat.pow_add]; ring
    simp only [roundDecimal, none, some', if_false, magnitude, Decimal.numerator,
      Decimal.denominator, quotient]

/-- A decimal without its trailing zeros has the same nearest magnitude. -/
theorem roundDecimal_trimBelow (limit : Nat) (d : Decimal) :
    roundDecimal (d.trimBelow limit) = roundDecimal d := by
  induction limit generalizing d with
  | zero => rfl
  | succ limit inductionHypothesis =>
      by_cases zero : d.coefficient % 10 = 0
      · have moved := roundDecimal_shift (d.coefficient / 10) 1 (d.scale + 1)
        have whole : d.coefficient / 10 * 10 ^ 1 = d.coefficient := by omega
        have place : d.scale + 1 - (1 : Nat) = d.scale := by omega
        rw [whole, place] at moved
        rw [Decimal.trimBelow, if_pos zero, inductionHypothesis]
        exact moved.symm
      · rw [Decimal.trimBelow, if_neg zero]

/-! ## Finite values round to themselves -/

/-- The magnitude of a value is its binade and its significand, which is normal above the lowest
binade. -/
theorem significand_cases (x : Binary64) :
    (x.binade = 0 ∧ x.significand = x.magnitude ∧ x.significand < 2 ^ 53) ∨
      (2 ^ 52 ≤ x.significand ∧ x.significand < 2 ^ 53 ∧
        x.binade * binadeSize + x.significand = x.magnitude) := by
  have parts := Nat.div_add_mod x.magnitude binadeSize
  have rest := Nat.mod_lt x.magnitude (show 0 < binadeSize by decide)
  unfold significand binade
  generalize x.magnitude = m at *
  unfold binadeSize at *
  omega

/-- A quotient that is a whole number of units is rounded as that number is. -/
theorem roundQuotient_of_units {numerator denominator units : Nat} (positive : 0 < denominator)
    (exact : numerator * 2 ^ 1074 = units * denominator) :
    roundQuotient numerator denominator =
      if (units.log2 - 52) * binadeSize + roundHalfEven units (2 ^ (units.log2 - 52)) <
          infinityMagnitude then
        some ((units.log2 - 52) * binadeSize + roundHalfEven units (2 ^ (units.log2 - 52)))
      else none := by
  have rounded : roundHalfEven (units * denominator) (denominator * 2 ^ (units.log2 - 52)) =
      roundHalfEven units (2 ^ (units.log2 - 52)) := by
    rw [Nat.mul_comm denominator]
    exact roundHalfEven_mul_right positive _ _
  simp only [roundQuotient, exact, Nat.mul_div_cancel _ positive, rounded]

/-- A finite value is the magnitude nearest to itself. -/
theorem roundQuotient_self {x : Binary64} (finite : x.isFinite = true) :
    roundQuotient x.numerator x.denominator = some x.magnitude := by
  have bounded : x.magnitude < infinityMagnitude := of_decide_eq_true finite
  have exact : x.numerator * 2 ^ 1074 = x.significand * 2 ^ x.binade * x.denominator := by
    have exponents : x.binade - 1074 + 1074 = x.binade + (1074 - x.binade) := by omega
    calc x.numerator * 2 ^ 1074 = x.significand * 2 ^ (x.binade - 1074 + 1074) := by
          rw [numerator, Nat.mul_assoc, ← Nat.pow_add]
      _ = x.significand * 2 ^ x.binade * x.denominator := by
          rw [exponents, Nat.pow_add, ← Nat.mul_assoc, denominator]
  have positive : 0 < x.denominator := Nat.pow_pos (by decide)
  rw [roundQuotient_of_units positive exact]
  -- In the lowest binade no bit is cut off; above it the significand has 53 bits, so that as many
  -- bits are cut off as the binade has put there.
  obtain ⟨lowest, whole, small⟩ | ⟨normal, small, whole⟩ := significand_cases x
  · have shift : (x.significand * 2 ^ x.binade).log2 - 52 = 0 := by
      rw [lowest, Nat.pow_zero, Nat.mul_one]
      by_cases zero : x.significand = 0
      · simp [zero]
      · have := (Nat.log2_lt zero).mpr small
        omega
    have rounded : roundHalfEven (x.significand * 2 ^ x.binade) (2 ^ 0) = x.magnitude := by
      rw [lowest, whole]
      exact roundHalfEven_mul_self (by decide) _
    rw [shift, rounded, Nat.zero_mul, Nat.zero_add, if_pos bounded]
  · have shift : (x.significand * 2 ^ x.binade).log2 - 52 = x.binade := by
      have reach : 2 ^ (52 + x.binade) ≤ x.significand * 2 ^ x.binade := by
        rw [Nat.pow_add]
        exact Nat.mul_le_mul_right _ normal
      have below : x.significand * 2 ^ x.binade < 2 ^ (52 + x.binade + 1) := by
        rw [Nat.add_right_comm, Nat.pow_add]
        exact Nat.mul_lt_mul_of_pos_right small (Nat.two_pow_pos _)
      have nonzero : x.significand * 2 ^ x.binade ≠ 0 := by
        have := Nat.two_pow_pos (52 + x.binade)
        omega
      have := (Nat.log2_eq_iff nonzero).mpr ⟨reach, below⟩
      omega
    rw [shift, roundHalfEven_mul_self (Nat.two_pow_pos _), whole, if_pos bounded]

end Binary64
end Sarif
