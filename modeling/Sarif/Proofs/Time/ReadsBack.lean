import Mathlib.Data.List.TakeWhile
import Sarif.Proofs.Node.WellFormed
import Sarif.Proofs.Number.Digits
import Sarif.Proofs.Text.Scanning
import Sarif.Proofs.Time.Calendar

/-!
# Date-times read back

The text of a well-formed date-time of the years 0000 to 9999 stands for that date-time. The text
is a chain of numbers with a fixed width and of marks between them, and the reader takes one after
the other off it.
-/

namespace Sarif
namespace DateTime

open Numeral (paddedDigits length_paddedDigits_of_lt isDigit_of_mem_paddedDigits
  paddedDigits_ne_nil ofDigitChars_paddedDigits)

/-! ## Numbers and marks -/

/-- A text that begins with a filled-up number begins with no white space. -/
theorem skip_padded (width n : Nat) (rest : List Char) :
    WhiteSpace.skip (padded width n ++ rest) = padded width n ++ rest := by
  rw [padded_eq]
  obtain ⟨c, digits, shape⟩ := List.exists_cons_of_ne_nil (paddedDigits_ne_nil width n)
  have digit : c.isDigit = true := isDigit_of_mem_paddedDigits (shape ▸ List.mem_cons_self ..)
  rw [shape, List.cons_append]
  apply WhiteSpace.skip_cons
  obtain rfl | rfl | rfl | rfl | rfl | rfl | rfl | rfl | rfl | rfl := isDigit_cases digit <;> rfl

/-- A number that is filled up to the width that is read is taken off a text. -/
theorem takeNumber_padded {width n : Nat} (positive : 0 < width) (fits : n < 10 ^ width)
    (rest : List Char) : takeNumber width (padded width n ++ rest) = some (n, rest) := by
  rw [padded_eq]
  have length := length_paddedDigits_of_lt positive fits
  have taken : ((paddedDigits width n ++ rest).take width).takeWhile Char.isDigit =
      paddedDigits width n := by
    rw [List.take_left' length]
    exact List.takeWhile_eq_self_iff.mpr fun c member => isDigit_of_mem_paddedDigits member
  have value : Nat.ofDigitChars 10 (paddedDigits width n) 0 = n := by
    rw [ofDigitChars_paddedDigits, Nat.zero_mul, Nat.zero_add]
  simp only [takeNumber, taken, List.isEmpty_eq_false_iff.mpr (paddedDigits_ne_nil width n),
    Bool.false_eq_true, if_false, value, length, List.drop_left' length]

/-- A field of two digits is taken off a text. -/
theorem takeField_padded {n : Nat} (fits : n < 100) (rest : List Char) :
    takeField (padded 2 n ++ rest) = some (n, rest) := by
  rw [takeField, skip_padded]
  exact takeNumber_padded (by decide) fits rest

/-- A mark that is not white space is taken off a text. -/
theorem takeMark_cons {mark : Char} (visible : WhiteSpace.includes mark = false)
    (rest : List Char) : takeMark mark (mark :: rest) = some rest := by
  simp [takeMark, WhiteSpace.skip_cons visible]

/-- A year of four digits is taken off a text. -/
theorem takeYear_padded {year : Nat} (fits : year < 10 ^ 4) (rest : List Char) :
    takeYear (padded 4 year ++ rest) = some ((year : Int), rest) := by
  have taken := takeNumber_padded (by decide) fits rest
  rw [padded_eq] at taken
  obtain ⟨c, digits, shape⟩ := List.exists_cons_of_ne_nil (paddedDigits_ne_nil 4 year)
  have digit : c.isDigit = true := isDigit_of_mem_paddedDigits (shape ▸ List.mem_cons_self ..)
  rw [takeYear, skip_padded, padded_eq]
  rw [shape, List.cons_append] at taken ⊢
  obtain rfl | rfl | rfl | rfl | rfl | rfl | rfl | rfl | rfl | rfl := isDigit_cases digit <;>
    exact congrArg (Option.map fun taken => ((taken.1 : Int), taken.2)) taken

/-! ## Fractions of a second -/

/-- A fraction of a second with a fixed number of places is taken off a text. -/
theorem takeFraction_padded {places n : Nat} (positive : 0 < places) (few : places ≤ 9)
    (fits : n < 10 ^ places) (rest : List Char) :
    takeFraction ('.' :: padded places n ++ 'Z' :: rest) =
      some (n * 10 ^ (9 - places), 'Z' :: rest) := by
  rw [padded_eq]
  have length := length_paddedDigits_of_lt positive fits
  have areDigits : ∀ c ∈ paddedDigits places n, c.isDigit = true :=
    fun c member => isDigit_of_mem_paddedDigits member
  have taken : (paddedDigits places n ++ 'Z' :: rest).takeWhile Char.isDigit =
      paddedDigits places n := by
    rw [List.takeWhile_append_of_pos areDigits]
    exact List.append_nil _
  have dropped : (paddedDigits places n ++ 'Z' :: rest).dropWhile Char.isDigit = 'Z' :: rest := by
    rw [List.dropWhile_append_of_pos areDigits]
    rfl
  have value : fractionNanos (paddedDigits places n) = n * 10 ^ (9 - places) := by
    rw [fractionNanos, List.take_of_length_le (by omega), ofDigitChars_paddedDigits, length,
      Nat.zero_mul, Nat.zero_add]
  simp only [takeFraction, List.cons_append, taken,
    List.isEmpty_eq_false_iff.mpr (paddedDigits_ne_nil places n), Bool.false_eq_true, if_false,
    value, dropped]

/-- The text of a fraction of a second is taken off a text that ends in universal time. -/
theorem takeFraction_fractionText {nanos : Nat} (fits : nanos < 1000000000) (rest : List Char) :
    takeFraction (fractionText nanos ++ 'Z' :: rest) = some (nanos, 'Z' :: rest) := by
  unfold fractionText
  split
  · next none =>
      subst none
      rfl
  split
  · next millis =>
      rw [takeFraction_padded (by decide) (by decide) (by omega)]
      have whole : nanos / 1000000 * 10 ^ (9 - 3) = nanos := by omega
      rw [whole]
  split
  · next micros =>
      rw [takeFraction_padded (by decide) (by decide) (by omega)]
      have whole : nanos / 1000 * 10 ^ (9 - 6) = nanos := by omega
      rw [whole]
  · rw [takeFraction_padded (by decide) (by decide) (by omega)]
    have whole : nanos * 10 ^ (9 - 9) = nanos := by omega
    rw [whole]

/-! ## Dates and times of day -/

/-- The days of the years 0000 to 9999 may be those of a date-time. -/
theorem covers_of_inEra {number : Int} (low : 0 ≤ (Date.ofDayNumber number).year)
    (high : (Date.ofDayNumber number).year ≤ 9999) : covers number = true := by
  obtain ⟨begun, next⟩ := Date.yearOf_bounds (number + Date.epoch)
  have year : (Date.ofDayNumber number).year = Date.yearOf (number + Date.epoch) := rfl
  have first : firstDay.dayNumber ≤ -1000000 := by decide
  have last : 10000000 ≤ lastDay.dayNumber := by decide
  rw [year] at low high
  unfold Date.daysBeforeYear Date.epoch at *
  simp only [covers, decide_eq_true_eq]
  omega

/-- The text of a day of the years 0000 to 9999 is taken off a text. -/
theorem takeDate_dateText {number : Int} (low : 0 ≤ (Date.ofDayNumber number).year)
    (high : (Date.ofDayNumber number).year ≤ 9999) (rest : List Char) :
    takeDate (dateText (Date.ofDayNumber number) ++ rest) =
      some (Date.ofDayNumber number, rest) := by
  have valid := Date.isValid_ofDayNumber number
  obtain ⟨month, day⟩ := Date.twoDigits_ofDayNumber number
  have count := Date.dayNumber_ofDayNumber number
  have covered := covers_of_inEra low high
  rw [← count] at covered
  generalize Date.ofDayNumber number = date at *
  obtain ⟨year, m, d⟩ := date
  obtain ⟨y, rfl⟩ := Int.eq_ofNat_of_zero_le low
  have digits : yearText (y : Int) = padded 4 y := by
    rw [yearText, if_neg (by omega), if_pos high]
    rfl
  have text : dateText ⟨(y : Int), m, d⟩ ++ rest =
      padded 4 y ++ '-' :: (padded 2 m ++ '-' :: (padded 2 d ++ rest)) := by
    simp [dateText, digits]
  have visible : WhiteSpace.includes '-' = false := rfl
  have fits : y < 10 ^ 4 := by
    have := high
    simp only at this
    omega
  rw [text]
  simp [takeDate, takeYear_padded fits, takeMark_cons visible, takeField_padded month,
    takeField_padded day, valid, covered]

/-- The time of day of a text is taken off it: hours, minutes, and seconds, of which the sixtieth is
a leap second. -/
theorem takeTime_text {time nanos : Nat} (inDay : time < 86400)
    (bounded : nanos < 2 * nanosPerSecond) (leap : nanosPerSecond ≤ nanos → time % 60 = 59) :
    takeTime (padded 2 (time / 3600) ++ ':' :: (padded 2 (time / 60 % 60) ++
        ':' :: (padded 2 (time % 60 + nanos / nanosPerSecond) ++
          (fractionText (nanos % nanosPerSecond) ++ ['Z'])))) = some ((time, nanos), ['Z']) := by
  unfold nanosPerSecond at *
  have visible : WhiteSpace.includes ':' = false := rfl
  have hour : time / 3600 < 24 := by omega
  have minute : time / 60 % 60 < 60 := by omega
  have second : time % 60 + nanos / 1000000000 ≤ 60 := by omega
  have bounds : time / 3600 < 24 ∧ time / 60 % 60 < 60 ∧
      time % 60 + nanos / 1000000000 ≤ 60 := ⟨hour, minute, second⟩
  have fraction : takeFraction (fractionText (nanos % 1000000000) ++ ['Z']) =
      some (nanos % 1000000000, ['Z']) := takeFraction_fractionText (by omega) []
  simp only [takeTime, takeField_padded (show time / 3600 < 100 by omega), takeMark_cons visible,
    takeField_padded (show time / 60 % 60 < 100 by omega),
    takeField_padded (show time % 60 + nanos / 1000000000 < 100 by omega), fraction,
    Option.bind_eq_bind, Option.bind_some, if_pos bounds]
  by_cases late : nanos / 1000000000 = 0
  · rw [if_neg (by omega)]
    have whole : (time / 3600 * 60 + time / 60 % 60) * 60 + (time % 60 + nanos / 1000000000) =
        time := by omega
    have rest : nanos % 1000000000 = nanos := by omega
    rw [whole, rest]
  · rw [if_pos (by omega)]
    have whole : (time / 3600 * 60 + time / 60 % 60) * 60 + 59 = time := by omega
    have rest : nanosPerSecond + nanos % 1000000000 = nanos := by
      unfold nanosPerSecond
      omega
    rw [whole, rest]

/-- The text of a well-formed date-time of the years 0000 to 9999 stands for it. -/
theorem ofText?_text {t : DateTime} (wellFormed : t.WellFormed) (inEra : t.InEra) :
    ofText? t.text = some t := by
  obtain ⟨seconds, nanos⟩ := t
  obtain ⟨bounded, leap⟩ := wellFormed
  obtain ⟨low, high⟩ := inEra
  dsimp only at bounded leap low high
  have time : (seconds % secondsPerDay).toNat < 86400 := by
    unfold secondsPerDay
    omega
  have minute_end : nanosPerSecond ≤ nanos → (seconds % secondsPerDay).toNat % 60 = 59 := by
    intro late
    have := leap late
    unfold secondsPerDay
    omega
  have count := Date.dayNumber_ofDayNumber (seconds / secondsPerDay)
  have total : seconds / secondsPerDay * secondsPerDay + (seconds % secondsPerDay).toNat - 0 =
      seconds := by
    unfold secondsPerDay
    omega
  have separator (rest : List Char) : takeSeparator ('T' :: rest) = some rest := rfl
  have offset : takeOffset ['Z'] = some (0, []) := rfl
  have blank : (WhiteSpace.skip []).isEmpty = true := rfl
  simp only [ofText?, text, List.append_assoc, List.cons_append, takeDate_dateText low high,
    separator, takeTime_text time bounded minute_end, offset, count, total, blank,
    covers_of_inEra low high, Option.bind_eq_bind, Option.bind_some, Bool.and_self, if_true]

end DateTime
end Sarif
