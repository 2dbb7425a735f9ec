import Sarif.Proofs.Number.ReadsBack

/-!
# Numbers read by scaling

A reader of texts scales a significand by a power of ten and rounds at every step, so what it finds
can differ from the nearest value. Two things hold of it all the same. What it finds is finite. And
where the significand and the power of ten are values themselves, only the result is rounded, and it
is the nearest value. This is so for a significand of at most 53 bits and at most 22 places, because
the power of five of 22 places is the last one of 53 bits.
-/

namespace Sarif

-- Powers are those of the core library, wherever Mathlib is imported too.
attribute [local instance (2000)] instPowNat

namespace Binary64

/-! ## Words of magnitudes below infinity -/

/-- The magnitude of a word that is put together from one below infinity. -/
theorem magnitude_ofMagnitude (negative : Bool) {n : Nat} (below : n < infinityMagnitude) :
    (ofMagnitude negative n).magnitude = n := by
  unfold infinityMagnitude binadeSize at below
  unfold ofMagnitude magnitude
  dsimp only
  rw [UInt64.toNat_ofNat']
  unfold signWeight
  split <;> omega

/-- A word of a magnitude below infinity is finite. -/
theorem isFinite_ofMagnitude (negative : Bool) {n : Nat} (below : n < infinityMagnitude) :
    (ofMagnitude negative n).isFinite = true := by
  rw [isFinite, magnitude_ofMagnitude negative below]
  exact decide_eq_true below

/-- A value that is found by rounding a quotient is finite. -/
theorem isFinite_of_roundQuotient {numerator denominator : Nat} {x : Binary64}
    (found : (roundQuotient numerator denominator).map positive = some x) : x.isFinite = true := by
  obtain ⟨magnitude, rounded, rfl⟩ := Option.map_eq_some_iff.mp found
  exact isFinite_ofMagnitude _ (lt_of_roundQuotient rounded)

/-- A value that is found by scaling a significand is finite, since the last step rounds. -/
theorem isFinite_of_ofParts? {significand : Nat} {exponent : Int} {x : Binary64}
    (found : ofParts? significand exponent = some x) : x.isFinite = true := by
  obtain ⟨start, nearest, found⟩ := Option.bind_eq_some_iff.mp found
  cases exponent with
  | ofNat places =>
      dsimp only at found
      split at found
      · obtain ⟨power, _, product⟩ := Option.bind_eq_some_iff.mp found
        exact isFinite_of_roundQuotient product
      · split at found
        · exact Option.some.inj found ▸ isFinite_of_roundQuotient nearest
        · cases found
  | negSucc more =>
      obtain ⟨lowered, _, found⟩ := Option.bind_eq_some_iff.mp found
      obtain ⟨power, _, quotient⟩ := Option.bind_eq_some_iff.mp found
      exact isFinite_of_roundQuotient quotient

/-! ## Natural numbers that are values -/

/-- The value is just this natural number. -/
def Denotes (x : Binary64) (n : Nat) : Prop :=
  x.numerator = n * x.denominator

/-- A value has a denominator other than zero. -/
theorem denominator_pos (x : Binary64) : 0 < x.denominator :=
  Nat.pow_pos (by decide)

/-- A quotient of zero is rounded to zero. -/
theorem roundQuotient_zero {denominator : Nat} (positive : 0 < denominator) :
    roundQuotient 0 denominator = some 0 := by
  have whole : roundQuotient 0 1 = some 0 := by decide +kernel
  rw [← whole]
  exact roundQuotient_eq_of_ratio positive (by decide) (by rw [Nat.zero_mul, Nat.zero_mul])

/-- There is a value of any binade and any significand that is normal in it. -/
theorem exists_fields {binade significand : Nat} (inside : binade ≤ 2045)
    (normal : 2 ^ 52 ≤ significand) (small : significand < 2 ^ 53) :
    ∃ x : Binary64, x.isFinite = true ∧ positive x.magnitude = x ∧
      x.binade = binade ∧ x.significand = significand := by
  have below : binade * binadeSize + significand < infinityMagnitude := by
    unfold infinityMagnitude binadeSize
    omega
  have whole := magnitude_ofMagnitude false below
  have shifted : (positive (binade * binadeSize + significand)).binade = binade := by
    rw [Binary64.binade, positive, whole]
    unfold binadeSize
    omega
  refine ⟨_, isFinite_ofMagnitude false below, congrArg positive whole, shifted, ?_⟩
  change magnitude (positive _) - (positive _).binade * binadeSize = significand
  rw [shifted, positive, whole]
  exact Nat.add_sub_cancel_left ..

/-- A number of at most 53 bits becomes a normal significand when it is shifted. -/
theorem exists_normal {n : Nat} (positive : 0 < n) (small : n < 2 ^ 53) :
    ∃ shift ≤ 52, 2 ^ 52 ≤ n * 2 ^ shift ∧ n * 2 ^ shift < 2 ^ 53 := by
  have low := Nat.log2_self_le positive.ne'
  have high : n < 2 ^ (n.log2 + 1) := Nat.lt_log2_self
  have bits : n.log2 < 53 := (Nat.log2_lt positive.ne').mpr small
  have complement : n.log2 + (52 - n.log2) = 52 := by omega
  refine ⟨52 - n.log2, Nat.sub_le .., ?_, ?_⟩
  · calc 2 ^ 52 = 2 ^ n.log2 * 2 ^ (52 - n.log2) := by rw [← Nat.pow_add, complement]
      _ ≤ n * 2 ^ (52 - n.log2) := Nat.mul_le_mul_right _ low
  · calc n * 2 ^ (52 - n.log2) < 2 ^ (n.log2 + 1) * 2 ^ (52 - n.log2) :=
          Nat.mul_lt_mul_of_pos_right high (Nat.two_pow_pos _)
      _ = 2 ^ 53 := by rw [← Nat.pow_add, Nat.add_right_comm, complement]

/-- A number of at most 53 bits with zeros behind them is a value. -/
theorem exists_ofNat?_denotes {n zeros : Nat} (small : n < 2 ^ 53) (few : zeros ≤ 900) :
    ∃ x, ofNat? (n * 2 ^ zeros) = some x ∧ x.Denotes (n * 2 ^ zeros) := by
  by_cases none : n = 0
  · subst none
    rw [Nat.zero_mul]
    have numerator : (positive 0).numerator = 0 := by decide +kernel
    exact ⟨positive 0, congrArg (Option.map positive) (roundQuotient_zero (by decide)),
      numerator.trans (Nat.zero_mul _).symm⟩
  · obtain ⟨shift, reach, normal, bounded⟩ := exists_normal (Nat.pos_of_ne_zero none) small
    have inside : 1074 - shift + zeros ≤ 2045 := by omega
    obtain ⟨x, finite, word, binade, significand⟩ := exists_fields inside normal bounded
    have held : x.Denotes (n * 2 ^ zeros) := by
      have exponents : shift + (1074 - shift + zeros - 1074) =
          zeros + (1074 - (1074 - shift + zeros)) := by omega
      rw [Denotes, numerator, denominator, binade, significand, Nat.mul_assoc, ← Nat.pow_add,
        exponents, Nat.pow_add, ← Nat.mul_assoc]
    have rounded : roundQuotient (n * 2 ^ zeros) 1 = some x.magnitude := by
      rw [← roundQuotient_self finite]
      refine roundQuotient_eq_of_ratio (by decide) x.denominator_pos ?_
      exact held.symm.trans (Nat.mul_one _).symm
    exact ⟨x, by rw [ofNat?, rounded, Option.map_some, word], held⟩

/-- A significand of at most 53 bits is a value. -/
theorem exists_significand_denotes {n : Nat} (small : n < 2 ^ 53) :
    ∃ x, ofNat? n = some x ∧ x.Denotes n := by
  have exact := exists_ofNat?_denotes small (Nat.zero_le 900)
  rwa [Nat.pow_zero, Nat.mul_one] at exact

/-- The power of ten of at most 22 places is a value. -/
theorem exists_power_denotes {places : Nat} (near : places ≤ 22) :
    ∃ x, ofNat? (10 ^ places) = some x ∧ x.Denotes (10 ^ places) := by
  have fives : 5 ^ places < 2 ^ 53 :=
    Nat.lt_of_le_of_lt (Nat.pow_le_pow_right (by decide) near) (by decide)
  have factors : 10 ^ places = 5 ^ places * 2 ^ places := Nat.mul_pow 5 2 places
  rw [factors]
  exact exists_ofNat?_denotes fives (by omega)

/-! ## Scaling values by values -/

section Exact

variable {x y : Binary64} {n m : Nat}

/-- The product of two natural numbers is only rounded once. -/
theorem times?_of_denotes (left : x.Denotes n) (right : y.Denotes m) :
    x.times? y = (roundQuotient (n * m) 1).map positive := by
  have ratio : x.numerator * y.numerator * 1 = n * m * (x.denominator * y.denominator) := by
    rw [Denotes] at left right
    rw [left, right]
    ring
  rw [times?, roundQuotient_eq_of_ratio (Nat.mul_pos x.denominator_pos y.denominator_pos)
    (by decide) ratio]

/-- The quotient of two natural numbers is only rounded once. -/
theorem over?_of_denotes (left : x.Denotes n) (right : y.Denotes m) (nonzero : 0 < m) :
    x.over? y = (roundQuotient n m).map positive := by
  have divisor : 0 < y.numerator := by
    rw [right]
    exact Nat.mul_pos nonzero y.denominator_pos
  have ratio : x.numerator * y.denominator * m = n * (x.denominator * y.numerator) := by
    rw [Denotes] at left right
    rw [left, right]
    ring
  rw [over?, roundQuotient_eq_of_ratio (Nat.mul_pos x.denominator_pos divisor) nonzero ratio]

end Exact

/-- A decimal near the point is rounded as the quotient that it is. -/
theorem roundDecimal_eq_roundQuotient {d : Decimal} (few : d.coefficient < 2 ^ 53)
    (near : d.scale.natAbs ≤ 22) :
    roundDecimal d = roundQuotient d.numerator d.denominator := by
  by_cases zero : d.coefficient = 0
  · have numerator : d.numerator = 0 := by rw [Decimal.numerator, zero, Nat.zero_mul]
    rw [roundDecimal, if_pos zero, numerator]
    exact (roundQuotient_zero (Nat.pow_pos (by decide))).symm
  · have digits : Decimal.digitCount d.coefficient ≤ 16 :=
      (Decimal.digitCount_le_iff (by decide)).mpr (Nat.lt_trans few (by decide))
    have low : ¬ d.magnitude < -400 := by
      unfold Decimal.magnitude
      omega
    have high : ¬ 400 < d.magnitude := by
      unfold Decimal.magnitude
      omega
    rw [roundDecimal, if_neg zero, if_neg low, if_neg high]

/-- Scaling a significand of 53 bits by at most 22 places finds the nearest value. -/
theorem ofParts?_eq_roundDecimal {significand : Nat} {exponent : Int}
    (few : significand < 2 ^ 53) (near : exponent.natAbs ≤ 22) :
    ofParts? significand exponent = (roundDecimal ⟨significand, exponent⟩).map positive := by
  obtain ⟨start, begun, startHeld⟩ := exists_significand_denotes few
  rw [roundDecimal_eq_roundQuotient few near, ofParts?, begun, Option.bind_eq_bind,
    Option.bind_some]
  cases exponent with
  | ofNat places =>
      have few' : places ≤ 22 := near
      have inside : places ≤ maxPlaces := Nat.le_trans near (by decide)
      obtain ⟨power, raised, powerHeld⟩ := exists_power_denotes few'
      have scaled : start.raise? places = start.times? power := by
        rw [raise?, raised, Option.bind_eq_bind, Option.bind_some]
      have whole : (-(places : Int)).toNat = 0 := by omega
      dsimp only
      rw [if_pos inside, scaled, times?_of_denotes startHeld powerHeld, Int.ofNat_eq_natCast,
        Decimal.numerator, Decimal.denominator, whole, Int.toNat_natCast, Nat.pow_zero]
  | negSucc more =>
      have few' : more + 1 ≤ 22 := near
      have less : more < maxPlaces := Nat.lt_of_lt_of_le near (by decide)
      obtain ⟨power, raised, powerHeld⟩ := exists_power_denotes few'
      have scaled : start.lower? (more % maxPlaces + 1) = start.over? power := by
        rw [lower?, Nat.mod_eq_of_lt less, raised, Option.bind_eq_bind, Option.bind_some]
      dsimp only
      rw [Nat.div_eq_of_lt less, lowerAgain?, Option.bind_some, scaled,
        over?_of_denotes startHeld powerHeld (Nat.pow_pos (by decide)), Decimal.numerator,
        Decimal.denominator, Int.toNat_negSucc, Int.neg_negSucc, Int.toNat_natCast, Nat.pow_zero,
        Nat.mul_one]

end Binary64

/-! ## Numerals -/

namespace Numeral

/-- Digits behind a number do not make it smaller. -/
theorem le_ofDigitChars (digits : List Char) (n : Nat) : n ≤ Nat.ofDigitChars 10 digits n := by
  induction digits generalizing n with
  | nil => exact Nat.le_refl n
  | cons digit rest inductionHypothesis =>
      rw [Nat.ofDigitChars_cons]
      exact Nat.le_trans (by omega) (inductionHypothesis _)

/-- Digits that fit are all taken, and stand for the number that they are the digits of. -/
theorem takeDigits_of_fits (digits : List Char) {significand : Nat}
    (fits : Nat.ofDigitChars 10 digits significand ≤ Binary64.maxSignificand) :
    takeDigits significand digits = (Nat.ofDigitChars 10 digits significand, digits.length) := by
  induction digits generalizing significand with
  | nil => rfl
  | cons digit rest inductionHypothesis =>
      rw [Nat.ofDigitChars_cons] at fits ⊢
      have next : 10 * significand + (digit.toNat - '0'.toNat) ≤ Binary64.maxSignificand :=
        Nat.le_trans (le_ofDigitChars rest _) fits
      simp only [takeDigits, if_pos next, inductionHypothesis fits, List.length_cons]

/-- The value nearest to a numeral is finite. -/
theorem isFinite_of_nearest? {n : Numeral} {x : Binary64} (found : n.nearest? = some x) :
    x.isFinite = true := by
  obtain ⟨magnitude, rounded, rfl⟩ := Option.map_eq_some_iff.mp found
  exact Binary64.isFinite_ofMagnitude _ (Binary64.lt_of_roundDecimal rounded)

/-- The value that a reader of texts finds in a numeral is finite. -/
theorem isFinite_of_float? {n : Numeral} {x : Binary64} (found : n.float? = some x) :
    x.isFinite = true := by
  obtain ⟨y, scaled, rfl⟩ := Option.map_eq_some_iff.mp found
  have below : y.magnitude < Binary64.infinityMagnitude :=
    of_decide_eq_true (Binary64.isFinite_of_ofParts? scaled)
  exact Binary64.isFinite_ofMagnitude _ below

/-- A reader of texts finds the nearest value in a numeral of at most 53 bits near the point. -/
theorem float?_eq_nearest? {n : Numeral} (few : n.decimal.coefficient < 2 ^ 53)
    (near : n.decimal.scale.natAbs ≤ 22) : n.float? = n.nearest? := by
  have fits : Nat.ofDigitChars 10 n.fraction n.whole ≤ Binary64.maxSignificand :=
    Nat.le_trans (Nat.le_of_lt few) (by decide)
  have whole : takeDigits 0 (Nat.toDigits 10 n.whole) =
      (n.whole, (Nat.toDigits 10 n.whole).length) := by
    have digits : Nat.ofDigitChars 10 (Nat.toDigits 10 n.whole) 0 = n.whole :=
      Nat.ofDigitChars_ten_toDigits
    have whole : Nat.ofDigitChars 10 (Nat.toDigits 10 n.whole) 0 ≤ Binary64.maxSignificand := by
      rw [digits]
      exact Nat.le_trans (le_ofDigitChars n.fraction n.whole) fits
    rw [takeDigits_of_fits _ whole, digits]
  have exponent (length : Nat) :
      (length : Int) - length - n.fraction.length + n.exponent.getD 0 = n.decimal.scale := by
    change _ = n.exponent.getD 0 - n.fraction.length
    omega
  have parts : Binary64.ofParts? n.decimal.coefficient n.decimal.scale =
      (Binary64.roundDecimal n.decimal).map Binary64.positive :=
    Binary64.ofParts?_eq_roundDecimal few near
  have scaled : n.float? =
      (Binary64.ofParts? n.decimal.coefficient n.decimal.scale).map fun x =>
        Binary64.ofMagnitude n.negative x.magnitude := by
    simp only [float?, whole, takeDigits_of_fits n.fraction fits, exponent]
    rfl
  rw [scaled, parts, nearest?, Option.map_map]
  cases rounded : Binary64.roundDecimal n.decimal with
  | none => rfl
  | some magnitude =>
      have below := Binary64.lt_of_roundDecimal rounded
      exact congrArg (fun m => some (Binary64.ofMagnitude n.negative m))
        (Binary64.magnitude_ofMagnitude false below)

/-- A finite value is read from what is written for it if that has at most 53 bits and stands near
the point. -/
theorem float?_ofFloat {x : Binary64} (finite : x.isFinite = true)
    (few : (ofFloat x).decimal.coefficient < 2 ^ 53)
    (near : (ofFloat x).decimal.scale.natAbs ≤ 22) : (ofFloat x).float? = some x :=
  (float?_eq_nearest? few near).trans (nearest?_ofFloat finite)

end Numeral
end Sarif
