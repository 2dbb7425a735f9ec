import Mathlib.Tactic.Ring
import Sarif.Number.Numeral
import Sarif.Time.DateTime

/-!
# Decimal digits

How many digits a number has, and what a run of digits with zeros in front stands for. Both the
fractions of numbers and the fields of date-times are written by `Numeral.paddedDigits`.
-/

namespace Sarif

namespace Decimal

/-- Every number has a digit. -/
theorem digitCount_pos (n : Nat) : 0 < digitCount n :=
  Nat.length_toDigits_pos

/-- A number has at most `count` digits when it is below that power of ten. -/
theorem digitCount_le_iff {n count : Nat} (positive : 0 < count) :
    digitCount n ≤ count ↔ n < 10 ^ count :=
  Nat.length_toDigits_le_iff (by decide) positive

/-- A number lies below the power of ten that its digits count. -/
theorem lt_pow_digitCount (n : Nat) : n < 10 ^ digitCount n :=
  (digitCount_le_iff (digitCount_pos n)).mp (Nat.le_refl _)

/-- A number other than zero reaches the power of ten below its digits. -/
theorem pow_digitCount_le {n : Nat} (positive : 0 < n) : 10 ^ (digitCount n - 1) ≤ n := by
  by_contra below
  have small : n < 10 ^ (digitCount n - 1) := Nat.lt_of_not_le below
  by_cases single : digitCount n - 1 = 0
  · rw [single] at small
    omega
  · have fewer := (digitCount_le_iff (Nat.pos_of_ne_zero single)).mpr small
    have := digitCount_pos n
    omega

/-- Zeros behind a number other than zero are as many digits more. -/
theorem digitCount_mul_pow {n : Nat} (positive : 0 < n) (zeros : Nat) :
    digitCount (n * 10 ^ zeros) = digitCount n + zeros := by
  have count_pos := digitCount_pos n
  apply Nat.le_antisymm
  · refine (digitCount_le_iff (by omega)).mpr ?_
    rw [Nat.pow_add]
    exact Nat.mul_lt_mul_of_pos_right (lt_pow_digitCount n) (Nat.pow_pos (by decide))
  · by_contra fewer
    have bound : n * 10 ^ zeros < 10 ^ (digitCount n - 1 + zeros) := by
      have := digitCount_pos (n * 10 ^ zeros)
      exact (digitCount_le_iff (by omega)).mp (by omega)
    rw [Nat.pow_add] at bound
    have reached := Nat.mul_le_mul_right (10 ^ zeros) (pow_digitCount_le positive)
    omega

end Decimal

namespace Numeral

/-- Digits filled up to a width are as many as the width, or as many as the number has. -/
theorem length_paddedDigits (width n : Nat) :
    (paddedDigits width n).length = max width (Decimal.digitCount n) := by
  have digits : (Nat.toDigits 10 n).length = Decimal.digitCount n := rfl
  simp only [paddedDigits, List.length_append, List.length_replicate, digits]
  omega

/-- A number that fits the width is filled up to just that width. -/
theorem length_paddedDigits_of_lt {width n : Nat} (positive : 0 < width) (fits : n < 10 ^ width) :
    (paddedDigits width n).length = width := by
  have count := (Decimal.digitCount_le_iff positive).mpr fits
  rw [length_paddedDigits]
  omega

/-- Digits filled up with zeros are digits. -/
theorem isDigit_of_mem_paddedDigits {width n : Nat} {c : Char} (member : c ∈ paddedDigits width n) :
    c.isDigit = true := by
  rcases List.mem_append.mp member with zero | digit
  · rw [List.eq_of_mem_replicate zero]
    rfl
  · exact Nat.isDigit_of_mem_toDigits (by decide) (by decide) digit

/-- There is at least one digit. -/
theorem paddedDigits_ne_nil (width n : Nat) : paddedDigits width n ≠ [] := by
  intro empty
  have length := length_paddedDigits width n
  have := Decimal.digitCount_pos n
  rw [empty, List.length_nil] at length
  omega

/-- Digits filled up with zeros are read back, behind whatever digits stand before them. -/
theorem ofDigitChars_paddedDigits (width n before : Nat) :
    Nat.ofDigitChars 10 (paddedDigits width n) before =
      before * 10 ^ (paddedDigits width n).length + n := by
  have digits : (Nat.toDigits 10 n).length = Decimal.digitCount n := rfl
  rw [paddedDigits, Nat.ofDigitChars_append, Nat.ofDigitChars_replicate_zero,
    Nat.ofDigitChars_eq_ofDigitChars_zero, Nat.ofDigitChars_ten_toDigits, List.length_append,
    List.length_replicate, Nat.pow_add]
  ring

end Numeral

/-- The digits of a date-time are filled up as those of a fraction are. -/
theorem DateTime.padded_eq (width n : Nat) : padded width n = Numeral.paddedDigits width n :=
  rfl

end Sarif
