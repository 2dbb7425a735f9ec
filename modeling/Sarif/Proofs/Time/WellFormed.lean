import Mathlib.Data.List.TakeWhile
import Mathlib.Tactic.Ring
import Sarif.Proofs.Text.Scanning
import Sarif.Time.DateTime

/-!
# Date-times that are read are well-formed

A fraction of a second counts nine digits, so it stays below a second; a sixtieth second is read as
the fifty-ninth and a second more; and offsets are whole minutes, so they do not move a leap second
away from the end of its minute.
-/

namespace Sarif
namespace DateTime

/-- A run of digits stands for less than the power of ten of its length, behind what stands
before it. -/
theorem ofDigitChars_lt {digits : List Char} (areDigits : ∀ c ∈ digits, c.isDigit = true)
    (before : Nat) : Nat.ofDigitChars 10 digits before < (before + 1) * 10 ^ digits.length := by
  induction digits generalizing before with
  | nil => simp
  | cons c digits inductionHypothesis =>
      have value : c.toNat - '0'.toNat ≤ 9 := by
        obtain rfl | rfl | rfl | rfl | rfl | rfl | rfl | rfl | rfl | rfl :=
          isDigit_cases (areDigits c (List.mem_cons_self ..)) <;> decide
      rw [Nat.ofDigitChars_cons, List.length_cons]
      calc Nat.ofDigitChars 10 digits (10 * before + (c.toNat - '0'.toNat))
          < (10 * before + (c.toNat - '0'.toNat) + 1) * 10 ^ digits.length :=
            inductionHypothesis (fun d member => areDigits d (List.mem_cons_of_mem _ member)) _
        _ ≤ ((before + 1) * 10) * 10 ^ digits.length := Nat.mul_le_mul_right _ (by omega)
        _ = (before + 1) * 10 ^ (digits.length + 1) := by ring

/-- A fraction of a second stays below a second. -/
theorem fractionNanos_lt {digits : List Char} (areDigits : ∀ c ∈ digits, c.isDigit = true) :
    fractionNanos digits < nanosPerSecond := by
  have counted : Nat.ofDigitChars 10 (digits.take 9) 0 < (0 + 1) * 10 ^ (digits.take 9).length :=
    ofDigitChars_lt (fun c member => areDigits c (List.mem_of_mem_take member)) 0
  have length : (digits.take 9).length ≤ 9 := List.length_take_le ..
  rw [Nat.zero_add, Nat.one_mul] at counted
  unfold fractionNanos
  calc Nat.ofDigitChars 10 (digits.take 9) 0 * 10 ^ (9 - (digits.take 9).length)
      < 10 ^ (digits.take 9).length * 10 ^ (9 - (digits.take 9).length) :=
        Nat.mul_lt_mul_of_pos_right counted (Nat.pow_pos (by decide))
    _ = 10 ^ 9 := by rw [← Nat.pow_add, Nat.add_sub_cancel' length]
    _ = nanosPerSecond := by decide

/-- A fraction that is taken off a text stays below a second. -/
theorem lt_of_takeFraction {text rest : List Char} {nanos : Nat}
    (taken : takeFraction text = some (nanos, rest)) : nanos < nanosPerSecond := by
  unfold takeFraction at taken
  split at taken
  · next after =>
      dsimp only at taken
      split at taken
      · cases taken
      · obtain ⟨rfl, -⟩ := Prod.mk.inj (Option.some.inj taken)
        exact fractionNanos_lt fun c member => List.mem_takeWhile_imp member
  · obtain ⟨rfl, -⟩ := Prod.mk.inj (Option.some.inj taken)
    decide

/-- A time of day that is taken off a text has a leap second only at the end of a minute. -/
theorem leap_of_takeTime {text rest : List Char} {time nanos : Nat}
    (taken : takeTime text = some ((time, nanos), rest)) :
    nanos < 2 * nanosPerSecond ∧ (nanosPerSecond ≤ nanos → time % 60 = 59) := by
  simp only [takeTime, Option.bind_eq_bind, Option.bind_eq_some_iff] at taken
  obtain ⟨⟨hour, _⟩, _, _, _, ⟨minute, _⟩, _, _, _, ⟨second, _⟩, _, ⟨fraction, _⟩, found, taken⟩ :=
    taken
  have below := lt_of_takeFraction found
  dsimp only at taken
  split at taken
  · split at taken
    · cases taken
      omega
    · cases taken
      omega
  · cases taken

/-- An offset is a whole number of minutes. -/
theorem minutes_of_takeOffset {text rest : List Char} {offset : Int}
    (taken : takeOffset text = some (offset, rest)) : offset % 60 = 0 := by
  unfold takeOffset at taken
  split at taken
  · cases taken
  split at taken
  · cases taken
    rfl
  split at taken
  · cases taken
    rfl
  simp only [takeShift, Option.bind_eq_bind, Option.bind_eq_some_iff] at taken
  obtain ⟨negative, _, ⟨shift, _⟩, ⟨⟨hour, _⟩, _, ⟨minute, _⟩, _, shifted⟩, taken⟩ := taken
  dsimp only at shifted
  split at shifted
  · cases shifted
    cases taken
    dsimp only
    split <;> omega
  · cases shifted

/-- A date-time that is read from a text is well-formed. -/
theorem wellFormed_of_ofText? {text : List Char} {t : DateTime} (read : ofText? text = some t) :
    t.WellFormed := by
  simp only [ofText?, Option.bind_eq_bind, Option.bind_eq_some_iff] at read
  obtain ⟨⟨date, _⟩, _, _, _, ⟨⟨time, nanos⟩, _⟩, timed, ⟨offset, _⟩, shifted, read⟩ := read
  obtain ⟨below, leap⟩ := leap_of_takeTime timed
  have minutes := minutes_of_takeOffset shifted
  dsimp only at read
  split at read
  · cases read
    refine ⟨below, fun full => ?_⟩
    have last := leap full
    unfold secondsPerDay
    dsimp only
    omega
  · cases read

end DateTime
end Sarif
