import Mathlib.Tactic.IntervalCases
import Sarif.Time.Calendar

/-!
# The calendar counts back

The day of a number is a day that exists, and it has that number. Years are found from the mean
length of a year, which is off by less than a year either way; within a year the months are
counted off one by one.
-/

namespace Sarif
namespace Date

/-! ## Years -/

/-- The year of a day has begun on that day, and the next year has not. -/
theorem yearOf_bounds (days : Int) :
    daysBeforeYear (yearOf days) ≤ days ∧ days < daysBeforeYear (yearOf days + 1) := by
  unfold yearOf
  dsimp only
  split
  · unfold daysBeforeYear at *
    omega
  · split
    · unfold daysBeforeYear at *
      omega
    · rw [Int.sub_add_cancel]
      unfold daysBeforeYear at *
      omega

/-- The months of a year add up to its days. -/
theorem sum_monthLengths (year : Int) :
    ((monthLengths (isLeapYear year)).sum : Int) =
      daysBeforeYear (year + 1) - daysBeforeYear year := by
  have days : ∀ leap : Bool, (monthLengths leap).sum = if leap then 366 else 365 := by decide
  rw [days]
  unfold daysBeforeYear
  cases leap : isLeapYear year with
  | true =>
      simp only [isLeapYear, Bool.and_eq_true, Bool.or_eq_true, beq_iff_eq, bne_iff_ne] at leap
      simp only [if_true, Nat.cast_ofNat]
      omega
  | false =>
      simp only [isLeapYear, Bool.and_eq_false_iff, Bool.or_eq_false_iff, beq_eq_false_iff_ne,
        bne_eq_false_iff_eq] at leap
      simp only [Bool.false_eq_true, if_false, Nat.cast_ofNat]
      omega

/-! ## Months -/

/-- A day within a run of months lies in one of them, and the months before it and the days in
it make up its number. -/
theorem exists_splitMonths_eq (lengths : List Nat) (first days : Nat)
    (inside : days < lengths.sum) :
    ∃ (i : Nat) (day : Nat), splitMonths lengths first days = (first + i, day) ∧
      i < lengths.length ∧ day < lengths.getD i 0 ∧ (lengths.take i).sum + day = days := by
  induction lengths generalizing first days with
  | nil => simp at inside
  | cons length rest inductionHypothesis =>
      by_cases here : days < length
      · exact ⟨0, days, by simp [splitMonths, here], by simp, by simpa using here, by simp⟩
      · rw [List.sum_cons] at inside
        obtain ⟨i, day, found, index, within, total⟩ :=
          inductionHypothesis (first + 1) (days - length) (by omega)
        refine ⟨i + 1, day, ?_, ?_, ?_, ?_⟩
        · rw [splitMonths, if_neg here, found, Nat.add_right_comm, Nat.add_assoc]
        · simpa using index
        · simpa using within
        · rw [List.take_succ_cons, List.sum_cons]
          omega

/-- No month has more than 31 days. -/
theorem monthLengths_le (leap : Bool) (i : Nat) : (monthLengths leap).getD i 0 ≤ 31 := by
  by_cases inside : i < 12
  · interval_cases i <;> cases leap <;> decide
  · have beyond : (monthLengths leap).length ≤ i := by
      have : (monthLengths leap).length = 12 := rfl
      omega
    rw [List.getD_eq_getElem?_getD, List.getElem?_eq_none beyond]
    decide

/-! ## Days -/

/-- The day of a number lies in one of twelve months, and the years before it, the months before it
and the days in it make up its number. -/
theorem exists_ofDayNumber_eq (number : Int) :
    ∃ i day, ofDayNumber number = ⟨yearOf (number + epoch), 1 + i, day + 1⟩ ∧ i < 12 ∧
      day < (monthLengths (isLeapYear (yearOf (number + epoch)))).getD i 0 ∧
      daysBeforeYear (yearOf (number + epoch)) +
        ((monthLengths (isLeapYear (yearOf (number + epoch)))).take i).sum + day =
          number + epoch := by
  obtain ⟨begun, next⟩ := yearOf_bounds (number + epoch)
  have length := sum_monthLengths (yearOf (number + epoch))
  obtain ⟨i, day, found, index, within, total⟩ :=
    exists_splitMonths_eq (monthLengths (isLeapYear (yearOf (number + epoch)))) 1
      (number + epoch - daysBeforeYear (yearOf (number + epoch))).toNat (by omega)
  refine ⟨i, day, ?_, index, within, by omega⟩
  simp only [ofDayNumber, found]

/-- The day of a number exists. -/
theorem isValid_ofDayNumber (number : Int) : (ofDayNumber number).isValid = true := by
  obtain ⟨i, day, date, _, within, _⟩ := exists_ofDayNumber_eq number
  rw [date]
  simp only [isValid, monthLength, Nat.add_sub_cancel_left, decide_eq_true_eq]
  rw [if_neg (by omega)]
  omega

/-- The day of a number has two digits for month and day. -/
theorem twoDigits_ofDayNumber (number : Int) :
    (ofDayNumber number).month < 100 ∧ (ofDayNumber number).day < 100 := by
  obtain ⟨i, day, date, index, within, _⟩ := exists_ofDayNumber_eq number
  have short := monthLengths_le (isLeapYear (yearOf (number + epoch))) i
  rw [date]
  constructor
  · show 1 + i < 100
    omega
  · show day + 1 < 100
    omega

/-- The day of a number has that number. -/
theorem dayNumber_ofDayNumber (number : Int) : (ofDayNumber number).dayNumber = number := by
  obtain ⟨i, day, date, _, _, total⟩ := exists_ofDayNumber_eq number
  rw [date]
  simp only [dayNumber, daysBeforeMonth, Nat.add_sub_cancel_left]
  omega

end Date
end Sarif
