import Sarif.Sentinel

/-!
# Sentinels as numbers

A sentinel that was made from a number holds it, up to the largest that it can hold, and is set.
Every way to make one keeps to `-1` and above (`Sentinel.Made.wellFormed`), and such a sentinel
holds no number exactly if it is unset.
-/

namespace Sarif

-- Powers are those of the core library, wherever Mathlib is imported too.
attribute [local instance (2000)] instPowNat

namespace Sentinel

/-- The sentinel of a number holds it, or the largest number if it is too large. -/
theorem value?_ofNat (n : Nat) : value? (ofNat n) = some (min n (2 ^ (63 : Nat) - 1)) := by
  by_cases fits : n < 2 ^ (63 : Nat)
  · have nonneg : (0 : Int64) ≤ Int64.ofNat n := by
      rw [Int64.le_iff_toInt_le, Int64.toInt_ofNat_of_lt fits]
      exact Int.natCast_nonneg n
    have least : min n (2 ^ (63 : Nat) - 1) = n := by omega
    rw [ofNat, if_pos fits, value?, if_pos nonneg, Int64.toInt_ofNat_of_lt fits, Int.toNat_natCast,
      least]
  · have greatest : min n (2 ^ (63 : Nat) - 1) = 2 ^ (63 : Nat) - 1 :=
      Nat.min_eq_right (Nat.le_trans (Nat.sub_le ..) (Nat.le_of_not_lt fits))
    rw [ofNat, if_neg fits, greatest]
    rfl

/-- The sentinel of a number that fits holds it. -/
theorem value?_ofNat_of_lt {n : Nat} (fits : n < 2 ^ (63 : Nat)) :
    value? (ofNat n) = some n := by
  have least : min n (2 ^ (63 : Nat) - 1) = n := by omega
  rw [value?_ofNat, least]

/-- A number that a sentinel holds fits. -/
theorem lt_of_value? {s : Sentinel} {n : Nat} (holds : s.value? = some n) :
    n < 2 ^ (63 : Nat) := by
  unfold value? at holds
  split at holds
  · next nonneg =>
    have bound := s.raw.toInt_lt
    rw [← Option.some.inj holds]
    omega
  · cases holds

/-- The sentinel of a number is set. -/
theorem ofNat_ne_unset (n : Nat) : ofNat n ≠ unset := by
  intro same
  have values := value?_ofNat n
  rw [same] at values
  cases values

/-- The wire value of the sentinel of a number is what it holds. -/
theorem toInt_raw_ofNat (n : Nat) : (ofNat n).raw.toInt = (min n (2 ^ (63 : Nat) - 1) : Nat) := by
  have holds := value?_ofNat n
  unfold value? at holds
  split at holds
  · next nonneg =>
    have low : 0 ≤ (ofNat n).raw.toInt := Int64.le_iff_toInt_le.mp nonneg
    rw [← Option.some.inj holds, Int.toNat_of_nonneg low]
  · cases holds

/-- Two numbers have one sentinel exactly if they are the same up to the largest. -/
theorem ofNat_eq_ofNat_iff {n m : Nat} :
    ofNat n = ofNat m ↔ min n (2 ^ (63 : Nat) - 1) = min m (2 ^ (63 : Nat) - 1) := by
  rw [mk.injEq, ← Int64.toInt_inj, toInt_raw_ofNat, toInt_raw_ofNat, Int.ofNat_inj]

/-- The sentinels of two numbers compare as the numbers do up to the largest. -/
theorem compare_ofNat (n m : Nat) :
    compare (ofNat n) (ofNat m) =
      Ord.compare (min n (2 ^ (63 : Nat) - 1)) (min m (2 ^ (63 : Nat) - 1)) := by
  rw [compare, toInt_raw_ofNat, toInt_raw_ofNat]
  simp only [Ord.compare, compareOfLessAndEq, Int.ofNat_lt, Int.ofNat_inj]

/-- The unset sentinel comes before that of any number. -/
theorem compare_unset_ofNat (n : Nat) : compare unset (ofNat n) = .lt := by
  have below : unset.raw.toInt < (ofNat n).raw.toInt := by
    rw [toInt_raw_ofNat]
    exact Int.lt_of_lt_of_le (by decide) (Int.natCast_nonneg _)
  exact Int.compare_eq_lt.mpr below

/-- The sentinel of an optional number is unset exactly if there is none. -/
theorem ofOption_eq_unset_iff {n : Option Nat} : ofOption n = unset ↔ n = none := by
  cases n with
  | none => simp [ofOption]
  | some n => simp [ofOption, ofNat_ne_unset]

/-- A sentinel stands for an index: it is the one that is made from the index, and gives it back
unless it is larger than any sentinel. -/
def StandsFor (s : Sentinel) (index : Nat) : Prop :=
  s = ofNat index ∧ (index < 2 ^ (63 : Nat) → s.value? = some index)

/-- The sentinel made from an index stands for it. -/
theorem standsFor_ofNat (index : Nat) : (ofNat index).StandsFor index :=
  ⟨rfl, value?_ofNat_of_lt⟩

/-! ## Below `-1` -/

/-- A sentinel is made from a number, from a wire value that is not refused, or from a number that
may be missing. -/
inductive Made : Sentinel → Prop where
  | ofNat (n : Nat) : Made (ofNat n)
  | ofRaw? {raw : Int64} {s : Sentinel} (admitted : ofRaw? raw = some s) : Made s
  | ofOption (n : Option Nat) : Made (ofOption n)

/-- The unset sentinel is well-formed. -/
theorem wellFormed_unset : unset.WellFormed := by
  unfold WellFormed
  decide

/-- The sentinel of a number is well-formed. -/
theorem wellFormed_ofNat (n : Nat) : (ofNat n).WellFormed := by
  refine Int64.le_iff_toInt_le.mpr ?_
  rw [toInt_raw_ofNat]
  exact Int.le_trans (by decide) (Int.natCast_nonneg _)

/-- A wire value is refused exactly if it is below `-1`. -/
theorem ofRaw?_eq_some_iff {raw : Int64} {s : Sentinel} :
    ofRaw? raw = some s ↔ s = ⟨raw⟩ ∧ s.WellFormed := by
  rw [ofRaw?]
  constructor
  · intro admitted
    split at admitted
    · next bound =>
      obtain rfl := Option.some.inj admitted
      have within : -1 ≤ raw := of_decide_eq_true bound
      exact ⟨rfl, within⟩
    · cases admitted
  · rintro ⟨rfl, wellFormed⟩
    have within : -1 ≤ raw := wellFormed
    exact if_pos (decide_eq_true within)

/-- A sentinel that is made is well-formed. -/
theorem Made.wellFormed {s : Sentinel} (made : Made s) : s.WellFormed := by
  cases made with
  | ofNat n => exact wellFormed_ofNat n
  | ofRaw? admitted => exact (ofRaw?_eq_some_iff.mp admitted).2
  | ofOption n =>
      cases n with
      | none => exact wellFormed_unset
      | some n => exact wellFormed_ofNat n

/-- A well-formed sentinel holds no number exactly if it is unset. -/
theorem value?_eq_none_iff {s : Sentinel} (wellFormed : s.WellFormed) :
    s.value? = none ↔ s.isUnset = true := by
  have bound : -1 ≤ s.raw.toInt := Int64.le_iff_toInt_le.mp wellFormed
  have unset : s.isUnset = true ↔ s.raw.toInt = -1 := by
    rw [isUnset, beq_iff_eq, ← Int64.toInt_inj]
    exact Iff.rfl
  have missing : s.value? = none ↔ ¬ 0 ≤ s.raw.toInt := by
    simp [value?, Int64.le_iff_toInt_le]
  rw [unset, missing]
  omega

end Sentinel
end Sarif
