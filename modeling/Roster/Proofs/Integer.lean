import Roster.Integer

/-! # Integers of fixed width as exact integers

Which exact integers are read, and the values of operations.

* `to64?_eq_some_iff`, `to32?_eq_some_iff`: an exact integer is read if it fits.
* `toInt_ofIntClamp`: where it does not fit, it is replaced by a bound.
* `toInt_div_of_pos`, `toInt_div_lt_maxValue`: quotients by positive divisors.
-/

namespace Roster.Integer

/-! ## Reading -/

theorem to64?_eq_some_iff {m : Int} {n : Int64} : to64? m = some n ↔ n.toInt = m := by
  unfold to64?
  rw [Int64.toInt_minValue, Int64.toInt_maxValue]
  constructor
  · intro h
    split at h
    case isTrue hm => rw [← Option.some.inj h, Int64.toInt_ofInt_of_le hm.1 (by omega)]
    case isFalse => cases h
  -- the value of an integer of 64 bits is within the bounds
  · rintro rfl
    have hlow := n.le_toInt
    have hhigh := n.toInt_lt
    rw [if_pos ⟨hlow, by omega⟩, Int64.ofInt_toInt]

theorem to32?_eq_some_iff {m : Int} {n : Int32} : to32? m = some n ↔ n.toInt = m := by
  unfold to32?
  rw [Int32.toInt_minValue, Int32.toInt_maxValue]
  constructor
  · intro h
    split at h
    case isTrue hm => rw [← Option.some.inj h, Int32.toInt_ofInt_of_le hm.1 (by omega)]
    case isFalse => cases h
  -- the value of an integer of 32 bits is within the bounds
  · rintro rfl
    have hlow := n.le_toInt
    have hhigh := n.toInt_lt
    rw [if_pos ⟨hlow, by omega⟩, Int32.ofInt_toInt]

/-! ## Operations -/

/-- Where an integer does not fit, it is replaced by the bound that it passes. -/
theorem toInt_ofIntClamp (n : Int) :
    (Int64.ofIntClamp n).toInt = max Int64.minValue.toInt (min n Int64.maxValue.toInt) := by
  have hbounds : Int64.minValue.toInt ≤ Int64.maxValue.toInt := by decide
  -- above, between or below the bounds
  by_cases hlower : Int64.minValue.toInt ≤ n
  · by_cases hupper : n ≤ Int64.maxValue.toInt
    · rw [Int64.toInt_ofIntClamp hlower hupper]
      omega
    · have hclamp : Int64.ofIntClamp n = Int64.maxValue := by
        rw [Int64.ofIntClamp, dif_pos hlower, dif_neg hupper]
      rw [hclamp]
      omega
  · have hclamp : Int64.ofIntClamp n = Int64.minValue := by
      rw [Int64.ofIntClamp, dif_neg hlower]
    rw [hclamp]
    omega

theorem toInt_min (a b : Int64) : (min a b).toInt = min a.toInt b.toInt := by
  by_cases h : a ≤ b
  · have hmin : min a b = a := if_pos h
    rw [hmin, Int.min_eq_left (Int64.le_iff_toInt_le.mp h)]
  · have hmin : min a b = b := if_neg h
    have hle : b ≤ a := Int64.le_of_lt (Int64.not_le.mp h)
    rw [hmin, Int.min_eq_right (Int64.le_iff_toInt_le.mp hle)]

/-- The next integer, below the upper bound. -/
theorem toInt_succ {a : Int64} (h : a.toInt + 1 ≤ Int64.maxValue.toInt) : (a + 1).toInt = a.toInt + 1 := by
  have hone : (1 : Int64).toInt = 1 := by decide
  have hlower := a.le_toInt
  rw [Int64.toInt_maxValue] at h
  rw [Int64.toInt_add, hone, Int.bmod_eq_of_le] <;> omega

/-- By a positive divisor the quotient is exact; the only one that is too large has the divisor `-1`. -/
theorem toInt_div_of_pos {a b : Int64} (hb : 0 < b.toInt) : (a / b).toInt = a.toInt.tdiv b.toInt := by
  have hone : (-1 : Int64).toInt = -1 := by decide
  have hne : b ≠ -1 := by
    rintro rfl
    omega
  exact Int64.toInt_div_of_ne_right a b hne

/-- A quotient that leaves a remainder is below the upper bound: the divisor is two at least. -/
theorem toInt_div_lt_maxValue {a b : Int64} (hb : 0 < b.toInt) (hrest : a % b ≠ 0) :
    (a / b).toInt < Int64.maxValue.toInt := by
  -- a divisor of one leaves no rest
  have htwo : 2 ≤ b.toInt := by
    have hone : b.toInt ≠ 1 := by
      intro heq
      apply hrest
      rw [← Int64.toInt_inj, Int64.toInt_mod, heq, Int.tmod_one, Int64.toInt_zero]
    omega
  have hmax : 0 < Int64.maxValue.toInt := by decide
  -- with a divisor of two or more, the quotient is at most half of the greatest number
  have hquotient : a.toInt.tdiv b.toInt ≤ Int64.maxValue.toInt / b.toInt := by
    rw [← Int.tdiv_eq_ediv_of_nonneg (Int.le_of_lt hmax)]
    exact Int.tdiv_le_tdiv hb a.toInt_le
  have hmul := Int.ediv_mul_le Int64.maxValue.toInt (Int.ne_of_gt hb)
  have hnonneg : 0 ≤ Int64.maxValue.toInt / b.toInt := Int.ediv_nonneg (Int.le_of_lt hmax) (Int.le_of_lt hb)
  have hhalf := Int.mul_le_mul_of_nonneg_left htwo hnonneg
  rw [toInt_div_of_pos hb]
  omega

end Roster.Integer
