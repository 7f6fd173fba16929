import Roster.Page
import Roster.Proofs.Integer

/-! # Page arithmetic

The number of a page, the offset of a numbered page, how many pages there are and whether rows follow, as operations on
unbounded integers.

* `PageRequest.toInt_offset_ofNumber`: the offset of a page is its number times the size, where that fits.
* `PageRequest.toInt_offset_ofNumber_of_nonneg`: where it does not fit, the offset is the upper bound.
* `PageRequest.check_ofNumber_iff`: which numbered pages can be asked for.
* `Page.number_eq_iff`: which stretches report a given number.
* `Page.lt_totalPages_iff`: the number of pages is the quotient of total and limit, rounded up.
* `Page.hasNext_iff`: rows follow if the offset and the content do not reach the total.
-/

namespace Roster

/-- The offset of a page is the number times the size, or the upper bound. -/
theorem PageRequest.toInt_offset_ofNumber_of_nonneg {number size : Int64} (hnumber : 0 ≤ number.toInt)
    (hsize : 0 ≤ size.toInt) :
    (ofNumber number size).offset.toInt = min (number.toInt * size.toInt) Int64.maxValue.toInt := by
  have hproduct : 0 ≤ number.toInt * size.toInt := Int.mul_nonneg hnumber hsize
  have hmin : Int64.minValue.toInt ≤ 0 := by decide
  have hmax : 0 ≤ Int64.maxValue.toInt := by decide
  -- the product cannot pass the lower bound, since it is not negative
  have hclamp := Integer.toInt_ofIntClamp (number.toInt * size.toInt)
  show (Int64.ofIntClamp (number.toInt * size.toInt)).toInt = _
  omega

theorem PageRequest.toInt_offset_ofNumber {number size : Int64} (hnumber : 0 ≤ number.toInt) (hsize : 0 ≤ size.toInt)
    (hend : number.toInt * size.toInt ≤ Int64.maxValue.toInt) :
    (ofNumber number size).offset.toInt = number.toInt * size.toInt := by
  rw [toInt_offset_ofNumber_of_nonneg hnumber hsize, Int.min_eq_left hend]

/-- A request can be answered if it skips no negative number of rows and asks for one row at least. -/
theorem PageRequest.check_eq_ok_iff {request : PageRequest} :
    request.check = .ok () ↔ 0 ≤ request.offset ∧ 0 < request.limit := by
  have hoffset : 0 ≤ request.offset ↔ ¬request.offset < 0 := Int64.not_lt.symm
  have hlimit : 0 < request.limit ↔ ¬request.limit ≤ 0 := Int64.not_le.symm
  rw [hoffset, hlimit, check]
  split
  -- the offset is looked at first, but either may be refused
  case isTrue hnegative => exact iff_of_false (fun h => by cases h) (fun h => h.1 hnegative)
  case isFalse hstart =>
    split
    case isTrue hempty => exact iff_of_false (fun h => by cases h) (fun h => h.2 hempty)
    case isFalse hsome => exact iff_of_true rfl ⟨hstart, hsome⟩

/-- A request for a numbered page can be answered if the number is not negative and the size is positive: an offset at a
bound has the sign that the product has. -/
theorem PageRequest.check_ofNumber_iff {number size : Int64} :
    (ofNumber number size).check = .ok () ↔ 0 ≤ number.toInt ∧ 0 < size.toInt := by
  rw [check_eq_ok_iff, Int64.le_iff_toInt_le, Int64.lt_iff_toInt_lt, Int64.toInt_zero]
  -- the size is positive on both sides, so the sign of the product is that of the number
  refine and_congr_left ?_
  intro (hsize : 0 < size.toInt)
  have hoffset : (ofNumber number size).offset.toInt =
      max Int64.minValue.toInt (min (number.toInt * size.toInt) Int64.maxValue.toInt) := Integer.toInt_ofIntClamp _
  have hmin : Int64.minValue.toInt < 0 := by decide
  have hmax : 0 < Int64.maxValue.toInt := by decide
  constructor
  · intro h
    exact Int.nonneg_of_mul_nonneg_left (by omega) hsize
  · intro hnumber
    have hproduct : 0 ≤ number.toInt * size.toInt := Int.mul_nonneg hnumber (Int.le_of_lt hsize)
    -- the product that is not negative stays so when it stops at the upper bound
    omega

namespace Page

variable {α : Type}

theorem limit_pos_iff {page : Page α} : ¬page.limit ≤ 0 ↔ 0 < page.limit.toInt := by
  rw [Int64.not_le, Int64.lt_iff_toInt_lt, Int64.toInt_zero]

/-- With a limit, the number of a page is the quotient of offset and limit. -/
theorem toInt_number {page : Page α} (hoffset : 0 ≤ page.offset.toInt) (hlimit : 0 < page.limit.toInt) :
    page.number.toInt = page.offset.toInt / page.limit.toInt := by
  rw [number, if_neg (limit_pos_iff.mpr hlimit), Integer.toInt_div_of_pos hlimit, Int.tdiv_eq_ediv_of_nonneg hoffset]

/-- The pages of one number are those whose offset lies in that many limits and before the next. -/
theorem number_eq_iff {page : Page α} (hoffset : 0 ≤ page.offset.toInt) (hlimit : 0 < page.limit.toInt)
    (number : Int64) :
    page.number = number ↔
      number.toInt * page.limit.toInt ≤ page.offset.toInt ∧
        page.offset.toInt < (number.toInt + 1) * page.limit.toInt := by
  rw [← Int64.toInt_inj, toInt_number hoffset hlimit]
  constructor
  -- the quotient is the one number with the offset among its rows
  · intro h
    rw [← h]
    exact ⟨Int.ediv_mul_le _ (Int.ne_of_gt hlimit), Int.lt_ediv_add_one_mul_self _ hlimit⟩
  · rintro ⟨hle, hlt⟩
    have hge : number.toInt ≤ page.offset.toInt / page.limit.toInt := (Int.le_ediv_iff_mul_le hlimit).mpr hle
    have hless : page.offset.toInt / page.limit.toInt < number.toInt + 1 := (Int.ediv_lt_iff_lt_mul hlimit).mpr hlt
    omega

/-! ## The number of pages -/

/-- The number of pages is the quotient of total and limit, and one more if a remainder is left. -/
theorem toInt_totalPages {page : Page α} (htotal : 0 ≤ page.total.toInt) (hlimit : 0 < page.limit.toInt) :
    page.totalPages.toInt =
      page.total.toInt / page.limit.toInt + if page.total.toInt % page.limit.toInt = 0 then 0 else 1 := by
  -- neither number is negative, so rounding toward zero is rounding down
  have hquotient : (page.total / page.limit).toInt = page.total.toInt / page.limit.toInt := by
    rw [Integer.toInt_div_of_pos hlimit, Int.tdiv_eq_ediv_of_nonneg htotal]
  have hremainder : page.total % page.limit = 0 ↔ page.total.toInt % page.limit.toInt = 0 := by
    rw [← Int64.toInt_inj, Int64.toInt_mod, Int.tmod_eq_emod_of_nonneg htotal, Int64.toInt_zero]
  rw [totalPages, if_neg (limit_pos_iff.mpr hlimit)]
  by_cases hrest : page.total.toInt % page.limit.toInt = 0
  · rw [if_pos (hremainder.mpr hrest), if_pos hrest, Int64.add_zero, hquotient, Int.add_zero]
  · -- what leaves a remainder leaves room for one more
    have hroom := Integer.toInt_div_lt_maxValue hlimit (mt hremainder.mp hrest)
    rw [if_neg (mt hremainder.mp hrest), if_neg hrest, Integer.toInt_succ hroom, hquotient]

/-- A number is less than the number of pages exactly when so many pages do not reach the total. -/
theorem lt_totalPages_iff {page : Page α} (htotal : 0 ≤ page.total.toInt) (hlimit : 0 < page.limit.toInt) (n : Int) :
    n < page.totalPages.toInt ↔ n * page.limit.toInt < page.total.toInt := by
  rw [toInt_totalPages htotal hlimit]
  -- with a remainder there is a page more, and the last multiple of the limit is below the total
  by_cases hrest : page.total.toInt % page.limit.toInt = 0
  · rw [if_pos hrest, Int.add_zero, Int.lt_ediv_iff_mul_lt hlimit (Int.dvd_of_emod_eq_zero hrest)]
  · rw [if_neg hrest, Int.lt_add_one_iff, Int.le_ediv_iff_mul_le hlimit]
    -- no multiple of the limit is the total
    have hne : n * page.limit.toInt ≠ page.total.toInt := by
      intro heq
      rw [← heq, Int.mul_emod_left] at hrest
      exact hrest rfl
    omega

/-! ## Whether rows follow -/

/-- Rows follow exactly when the offset and the content together do not reach the total. -/
theorem hasNext_iff {page : Page α} (hcount : (page.content.length : Int) ≤ Int64.maxValue.toInt) :
    page.hasNext = true ↔ page.offset.toInt + page.content.length < page.total.toInt := by
  have hmin : Int64.minValue.toInt ≤ 0 := by decide
  have hseen : (Integer.ofCount page.content.length).toInt = page.content.length :=
    Int64.toInt_ofIntClamp (by omega) hcount
  have hsum := Integer.toInt_ofIntClamp (page.offset.toInt + page.content.length)
  have hoffset := page.offset.minValue_le_toInt
  have htotal := page.total.toInt_le
  rw [hasNext, decide_eq_true_iff, Int64.lt_iff_toInt_lt, Integer.addSat, hseen, hsum]
  -- a sum past the upper bound stays at it, and no total is above it
  omega

end Page

end Roster
