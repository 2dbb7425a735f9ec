import Sarif.Proofs.Time.ReadsBack

/-!
# Date-times are known by their texts

Two well-formed date-times with the same text are the same, in every year. Outside the years 0000
to 9999 a text begins with a signed year of four digits or more, which is taken off it like any
other; whether the date lies in the range that a reader accepts does not matter here.
-/

namespace Sarif
namespace DateTime

open Numeral (paddedDigits isDigit_of_mem_paddedDigits paddedDigits_ne_nil
  ofDigitChars_paddedDigits)

/-- A number that ends in front of a hyphen is taken off a text, if the width that is read reaches
that far. -/
theorem takeNumber_padded_of_le {width places n : Nat} (rest : List Char)
    (reaches : (padded places n).length ≤ width) :
    takeNumber width (padded places n ++ '-' :: rest) = some (n, '-' :: rest) := by
  rw [padded_eq] at *
  have areDigits : ∀ c ∈ paddedDigits places n, c.isDigit = true :=
    fun c member => isDigit_of_mem_paddedDigits member
  have ends (count : Nat) : (('-' :: rest).take count).takeWhile Char.isDigit = [] := by
    cases count <;> rfl
  have taken : ((paddedDigits places n ++ '-' :: rest).take width).takeWhile Char.isDigit =
      paddedDigits places n := by
    rw [List.take_append, List.take_of_length_le reaches,
      List.takeWhile_append_of_pos areDigits, ends, List.append_nil]
  have value : Nat.ofDigitChars 10 (paddedDigits places n) 0 = n := by
    rw [ofDigitChars_paddedDigits, Nat.zero_mul, Nat.zero_add]
  simp only [takeNumber, taken, List.isEmpty_eq_false_iff.mpr (paddedDigits_ne_nil places n),
    Bool.false_eq_true, if_false, value, List.drop_left]

/-- The text of a year is taken off a text in front of a hyphen. -/
theorem takeYear_yearText (year : Int) (rest : List Char) :
    takeYear (yearText year ++ '-' :: rest) = some (year, '-' :: rest) := by
  have reaches (n : Nat) : (padded 4 n).length ≤ (padded 4 n ++ '-' :: rest).length := by
    simp
  have taken (n : Nat) := takeNumber_padded_of_le rest (reaches n)
  unfold yearText
  split
  · next negative =>
      have visible : WhiteSpace.includes '-' = false := rfl
      have sign : -(year.natAbs : Int) = year := by omega
      rw [List.cons_append, takeYear, WhiteSpace.skip_cons visible]
      simp only [taken, Option.map_some, sign]
  split
  · next positive small =>
      obtain ⟨n, rfl⟩ := Int.eq_ofNat_of_zero_le (Int.not_lt.mp positive)
      have fits : n < 10 ^ 4 := by omega
      exact takeYear_padded fits _
  · next positive _ =>
      have visible : WhiteSpace.includes '+' = false := rfl
      have sign : (year.natAbs : Int) = year := by omega
      rw [List.cons_append, takeYear, WhiteSpace.skip_cons visible]
      simp only [taken, Option.map_some, sign]

/-- The date, and the time of day with its nanoseconds, that a text names in universal time, whether
or not a date-time may fall on that day. -/
def named? (text : List Char) : Option (Date × Nat × Nat) := do
  let (year, text) ← takeYear text
  let text ← takeMark '-' text
  let (month, text) ← takeField text
  let text ← takeMark '-' text
  let (day, text) ← takeField text
  let text ← takeSeparator text
  let (time, _) ← takeTime text
  some (⟨year, month, day⟩, time)

/-- The text of a well-formed date-time names its day and its time of day. -/
theorem named?_text {t : DateTime} (wellFormed : t.WellFormed) :
    named? t.text = some (Date.ofDayNumber (t.seconds / secondsPerDay),
      (t.seconds % secondsPerDay).toNat, t.nanos) := by
  obtain ⟨seconds, nanos⟩ := t
  obtain ⟨bounded, leap⟩ := wellFormed
  dsimp only at bounded leap ⊢
  have time : (seconds % secondsPerDay).toNat < 86400 := by
    unfold secondsPerDay
    omega
  have minute_end : nanosPerSecond ≤ nanos → (seconds % secondsPerDay).toNat % 60 = 59 := by
    intro late
    have := leap late
    unfold secondsPerDay
    omega
  obtain ⟨month, day⟩ := Date.twoDigits_ofDayNumber (seconds / secondsPerDay)
  have visible : WhiteSpace.includes '-' = false := rfl
  have separator (rest : List Char) : takeSeparator ('T' :: rest) = some rest := rfl
  simp only [named?, text, dateText, List.append_assoc, List.cons_append, takeYear_yearText,
    takeMark_cons visible, takeField_padded month, takeField_padded day, separator,
    takeTime_text time bounded minute_end, Option.bind_eq_bind, Option.bind_some]

/-- Well-formed date-times with one text are the same. -/
theorem eq_of_text_eq {t u : DateTime} (one : t.WellFormed) (other : u.WellFormed)
    (texts : t.text = u.text) : t = u := by
  have named := named?_text one
  rw [texts, named?_text other] at named
  obtain ⟨dates, times, nanos⟩ : Date.ofDayNumber (u.seconds / secondsPerDay) =
      Date.ofDayNumber (t.seconds / secondsPerDay) ∧
      (u.seconds % secondsPerDay).toNat = (t.seconds % secondsPerDay).toNat ∧
      u.nanos = t.nanos := by simpa using named
  have days := congrArg Date.dayNumber dates
  rw [Date.dayNumber_ofDayNumber, Date.dayNumber_ofDayNumber] at days
  have seconds : t.seconds = u.seconds := by
    unfold secondsPerDay at days times
    omega
  obtain ⟨_, _⟩ := t
  obtain ⟨_, _⟩ := u
  exact congrArg₂ DateTime.mk seconds nanos.symm

end DateTime
end Sarif
