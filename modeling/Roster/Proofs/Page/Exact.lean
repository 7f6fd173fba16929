import Mathlib.Data.Rat.Floor
import Roster.Proofs.Page

/-! # Page arithmetic at the bounds

The operations of 64-bit integers wrap around where a result does not fit, and a quotient by zero is zero.  Page
arithmetic meets neither case, whatever the offset, the limit and the total: carried out with operations that refuse to
go on there, it comes to the same numbers.  These are floors and ceilings of fractions.  An offset that stays at a bound
does no harm, either: no request that would be refused is answered because of it, and the numbers of pages stop growing
there but never decrease.

* `Integer.Arithmetic`: ways to carry out the operations, `Integer.wrapping` and `Integer.checked` among them.
* `Page.numberIn`, `Page.totalPagesIn`: the computations in any of these ways.
* `Page.numberIn_checked`, `Page.totalPagesIn_checked`: no operation of them is refused.
* `Page.arithmetic_exact`: the numbers that they come to, and whether rows follow.
* `Page.number_ofNumber`: which numbered pages can be asked for, and the numbers that they report.
-/

namespace Roster

/-! ## Operations that may be refused -/

namespace Integer

/-- A way to carry out the operations of 64-bit integers. -/
structure Arithmetic (m : Type → Type) where
  div : Int64 → Int64 → m Int64
  mod : Int64 → Int64 → m Int64
  add : Int64 → Int64 → m Int64

/-- All operations have results, which wrap around at the bounds. -/
def wrapping : Arithmetic Id where
  div a b := a / b
  mod a b := a % b
  add a b := a + b

/-- An operation has its exact result or none.  Quotients are rounded toward zero; there is none by zero and none that
does not fit, and without a quotient there is no remainder. -/
def checked : Arithmetic Option where
  div a b := if b = 0 then none else to64? (a.toInt.tdiv b.toInt)
  mod a b := if b = 0 then none else (to64? (a.toInt.tdiv b.toInt)).bind fun _ => to64? (a.toInt.tmod b.toInt)
  add a b := to64? (a.toInt + b.toInt)

variable {a b : Int64}

theorem ne_zero_of_pos (hb : 0 < b.toInt) : b ≠ 0 := by
  rintro rfl
  exact absurd hb (by decide)

theorem to64?_tdiv (hb : 0 < b.toInt) : to64? (a.toInt.tdiv b.toInt) = some (a / b) := by
  rw [to64?_eq_some_iff, toInt_div_of_pos hb]

theorem checked_div (hb : 0 < b.toInt) : checked.div a b = some (a / b) := by
  show (if b = 0 then none else to64? (a.toInt.tdiv b.toInt)) = _
  rw [if_neg (ne_zero_of_pos hb), to64?_tdiv hb]

theorem checked_mod (hb : 0 < b.toInt) : checked.mod a b = some (a % b) := by
  show (if b = 0 then none else (to64? (a.toInt.tdiv b.toInt)).bind fun _ => to64? (a.toInt.tmod b.toInt)) = _
  rw [if_neg (ne_zero_of_pos hb), to64?_tdiv hb, Option.bind_some, to64?_eq_some_iff, Int64.toInt_mod]

theorem checked_add (h : (a + b).toInt = a.toInt + b.toInt) : checked.add a b = some (a + b) := by
  show to64? (a.toInt + b.toInt) = _
  rw [to64?_eq_some_iff, h]

/-! ## Floors and ceilings -/

variable {n d : Int}

/-- The quotient of integers is the floor of the fraction. -/
theorem floor_div (hd : 0 < d) : ⌊(n : ℚ) / d⌋ = n / d := by
  have hpos : (0 : ℚ) < d := Int.cast_pos.mpr hd
  refine eq_of_forall_le_iff fun z => ?_
  rw [Int.le_floor, le_div_iff₀ hpos, ← Int.cast_mul, Int.cast_le, Int.le_ediv_iff_mul_le hd]

/-- The integers below the ceiling of a fraction are those whose multiples stay below the numerator. -/
theorem eq_ceil_of_lt_iff {m : Int} (hd : 0 < d) (h : ∀ z, z < m ↔ z * d < n) : m = ⌈(n : ℚ) / d⌉ := by
  have hpos : (0 : ℚ) < d := Int.cast_pos.mpr hd
  refine eq_of_forall_lt_iff fun z => ?_
  rw [h, Int.lt_ceil, lt_div_iff₀ hpos, ← Int.cast_mul, Int.cast_lt]

/-- A quotient stops growing where the numerator does. -/
theorem min_mul_ediv (n bound : Int) (hd : 0 < d) : min (n * d) bound / d = min n (bound / d) := by
  refine eq_of_forall_le_iff fun z => ?_
  rw [Int.le_ediv_iff_mul_le hd, le_min_iff, le_min_iff, Int.le_ediv_iff_mul_le hd, Int.mul_le_mul_right hd]

end Integer

namespace Page

variable {α : Type}

/-! ## What a page reports -/

def numberIn {m : Type → Type} [Monad m] (arithmetic : Integer.Arithmetic m) (page : Page α) : m Int64 :=
  if page.limit ≤ 0 then pure 0 else arithmetic.div page.offset page.limit

def totalPagesIn {m : Type → Type} [Monad m] (arithmetic : Integer.Arithmetic m) (page : Page α) : m Int64 :=
  if page.limit ≤ 0 then pure 0
  else do
    let full ← arithmetic.div page.total page.limit
    let rest ← arithmetic.mod page.total page.limit
    arithmetic.add full (if rest = 0 then 0 else 1)

variable (page : Page α)

theorem numberIn_wrapping : page.numberIn Integer.wrapping = page.number :=
  rfl

theorem totalPagesIn_wrapping : page.totalPagesIn Integer.wrapping = page.totalPages :=
  rfl

/-- No operation is refused: a computation that does not end at once has a positive divisor. -/
theorem numberIn_checked : page.numberIn Integer.checked = some page.number := by
  unfold numberIn number
  split
  case isTrue => rfl
  case isFalse hlimit => exact Integer.checked_div (limit_pos_iff.mp hlimit)

/-- No operation is refused: the quotient is below the upper bound where it is to be followed by one more. -/
theorem totalPagesIn_checked : page.totalPagesIn Integer.checked = some page.totalPages := by
  unfold totalPagesIn totalPages
  split
  case isTrue => rfl
  case isFalse hlimit =>
    rw [limit_pos_iff] at hlimit
    rw [Integer.checked_div hlimit, Integer.checked_mod hlimit]
    apply Integer.checked_add
    -- without a remainder nothing is added, and with one there is room for one more
    by_cases hrest : page.total % page.limit = 0
    · rw [if_pos hrest, Int64.add_zero, Int64.toInt_zero, Int.add_zero]
    · rw [if_neg hrest, Integer.toInt_succ (Integer.toInt_div_lt_maxValue hlimit hrest), Int64.toInt_one]

variable {page}

theorem toInt_number_eq_floor (hoffset : 0 ≤ page.offset.toInt) (hlimit : 0 < page.limit.toInt) :
    page.number.toInt = ⌊(page.offset.toInt : ℚ) / page.limit.toInt⌋ := by
  rw [toInt_number hoffset hlimit, Integer.floor_div hlimit]

theorem toInt_totalPages_eq_ceil (htotal : 0 ≤ page.total.toInt) (hlimit : 0 < page.limit.toInt) :
    page.totalPages.toInt = ⌈(page.total.toInt : ℚ) / page.limit.toInt⌉ :=
  Integer.eq_ceil_of_lt_iff hlimit (lt_totalPages_iff htotal hlimit)

theorem number_of_limit_nonpos (hlimit : page.limit ≤ 0) : page.number = 0 :=
  if_pos hlimit

theorem totalPages_of_limit_nonpos (hlimit : page.limit ≤ 0) : page.totalPages = 0 :=
  if_pos hlimit

/-- The computations of a page come to the same numbers when every operation has to be exact, whatever the offset, the
limit and the total, so none of them divides by zero and none leaves the 64-bit integers.  With a limit, the number of
the page is the floor of the fraction of offset and limit, and the number of pages is the ceiling of the fraction of
total and limit; without one, both are zero.  Rows follow exactly when the offset and the count of the content, added as
unbounded integers, stay below the total. -/
theorem arithmetic_exact (page : Page α) :
    (page.numberIn Integer.wrapping = page.number ∧ page.numberIn Integer.checked = some page.number) ∧
    (page.totalPagesIn Integer.wrapping = page.totalPages ∧
      page.totalPagesIn Integer.checked = some page.totalPages) ∧
    (0 < page.limit → 0 ≤ page.offset → page.number.toInt = ⌊(page.offset.toInt : ℚ) / page.limit.toInt⌋) ∧
    (0 < page.limit → 0 ≤ page.total → page.totalPages.toInt = ⌈(page.total.toInt : ℚ) / page.limit.toInt⌉) ∧
    (page.limit ≤ 0 → page.number = 0 ∧ page.totalPages = 0) ∧
    ((page.content.length : Int) ≤ Int64.maxValue.toInt →
      (page.hasNext = true ↔ page.offset.toInt + page.content.length < page.total.toInt)) := by
  refine ⟨⟨page.numberIn_wrapping, page.numberIn_checked⟩, ⟨page.totalPagesIn_wrapping, page.totalPagesIn_checked⟩,
    -- the bounds are stated for the integers, and used for the numbers that they stand for
    ?_, ?_, ?_, hasNext_iff⟩
  · intro hlimit hoffset
    rw [Int64.lt_iff_toInt_lt, Int64.toInt_zero] at hlimit
    rw [Int64.le_iff_toInt_le, Int64.toInt_zero] at hoffset
    exact toInt_number_eq_floor hoffset hlimit
  · intro hlimit htotal
    rw [Int64.lt_iff_toInt_lt, Int64.toInt_zero] at hlimit
    rw [Int64.le_iff_toInt_le, Int64.toInt_zero] at htotal
    exact toInt_totalPages_eq_ceil htotal hlimit
  · intro hlimit
    exact ⟨number_of_limit_nonpos hlimit, totalPages_of_limit_nonpos hlimit⟩

/-- A page at the upper bound of offsets, where adding the content stays at the bound, and the largest odd total in
pages of two rows; and a page with the only divisor that leads out of the 64-bit integers, which is not used. -/
theorem arithmetic_exact_at_bounds :
    let last : Page String := ⟨["Eve"], Int64.maxValue, Int64.maxValue, 2⟩
    let pageless : Page String := ⟨[], Int64.minValue, Int64.minValue, -1⟩
    0 < last.limit ∧ 0 ≤ last.offset ∧ last.number.toInt = ⌊(last.offset.toInt : ℚ) / last.limit.toInt⌋ ∧
      last.number = 4611686018427387903 ∧
      0 ≤ last.total ∧ last.totalPages.toInt = ⌈(last.total.toInt : ℚ) / last.limit.toInt⌉ ∧
      last.totalPages = 4611686018427387904 ∧
      (last.content.length : Int) ≤ Int64.maxValue.toInt ∧ last.hasNext = false ∧
      pageless.limit ≤ 0 ∧ pageless.number = 0 ∧ pageless.totalPages = 0 := by
  intro last pageless
  obtain ⟨-, -, hnumber, hpages, -, hnext⟩ := arithmetic_exact last
  obtain ⟨-, -, -, -, hpageless, -⟩ := arithmetic_exact pageless
  have hcount : (last.content.length : Int) ≤ Int64.maxValue.toInt := by decide
  have hend : ¬last.hasNext = true := mt (hnext hcount).mp (by decide)
  rw [Bool.not_eq_true] at hend
  exact ⟨by decide, by decide, hnumber (by decide) (by decide), by decide, by decide, hpages (by decide) (by decide),
    by decide, hcount, hend, by decide, hpageless (by decide)⟩

/-! ## Numbered pages -/

section Numbered

variable {number other size : Int64} (content : List α) (total : Int64)

/-- The number that a numbered page reports stops growing where its offset does. -/
theorem toInt_number_ofNumber (hnumber : 0 ≤ number.toInt) (hsize : 0 < size.toInt) :
    (ofRequest content total (PageRequest.ofNumber number size)).number.toInt =
      min number.toInt (Int64.maxValue.toInt / size.toInt) := by
  have hoffset := PageRequest.toInt_offset_ofNumber_of_nonneg hnumber (Int.le_of_lt hsize)
  -- a product of numbers that are not negative, or the bound that it stops at
  have hnonneg : 0 ≤ (PageRequest.ofNumber number size).offset.toInt := by
    have hproduct : 0 ≤ number.toInt * size.toInt := Int.mul_nonneg hnumber (Int.le_of_lt hsize)
    have hmax : 0 ≤ Int64.maxValue.toInt := by decide
    omega
  have hquotient : (ofRequest content total (PageRequest.ofNumber number size)).number.toInt =
      (PageRequest.ofNumber number size).offset.toInt / size.toInt := toInt_number hnonneg hsize
  rw [hquotient, hoffset, Integer.min_mul_ediv _ _ hsize]

/-- A later page reports no smaller number, also where the numbers are negative. -/
theorem number_ofNumber_mono (hle : number ≤ other) (size : Int64) (content' : List α) (total' : Int64) :
    (ofRequest content total (PageRequest.ofNumber number size)).number ≤
      (ofRequest content' total' (PageRequest.ofNumber other size)).number := by
  show (if size ≤ 0 then 0 else Integer.mulSat number size / size) ≤
    -- both pages have the same size, so they come to the same branch
    if size ≤ 0 then 0 else Integer.mulSat other size / size
  split
  case isTrue => exact Int64.le_refl 0
  case isFalse hsize =>
    -- the product, its bounds and the quotient keep the order
    rw [Int64.not_le, Int64.lt_iff_toInt_lt, Int64.toInt_zero] at hsize
    rw [Int64.le_iff_toInt_le] at hle
    rw [Int64.le_iff_toInt_le, Integer.toInt_div_of_pos hsize, Integer.toInt_div_of_pos hsize]
    apply Int.tdiv_le_tdiv hsize
    have hproduct := Int.mul_le_mul_of_nonneg_right hle (Int.le_of_lt hsize)
    rw [Integer.mulSat, Integer.mulSat, Integer.toInt_ofIntClamp, Integer.toInt_ofIntClamp]
    omega

end Numbered

/-- A numbered page can be asked for exactly when its number is not negative and its size is positive.  It then reports
its number, or the floor of the fraction of the upper bound and the size if that is less, whatever it shows; so it
reports its number wherever the product with the size fits.  A later page never reports a smaller number. -/
theorem number_ofNumber :
    (∀ number size : Int64, (PageRequest.ofNumber number size).check = .ok () ↔ 0 ≤ number ∧ 0 < size) ∧
    (∀ number size : Int64, 0 ≤ number → 0 < size → ∀ (content : List α) (total : Int64),
      let page := ofRequest content total (PageRequest.ofNumber number size)
      page.number.toInt = min number.toInt ⌊(Int64.maxValue.toInt : ℚ) / size.toInt⌋ ∧
      (number.toInt * size.toInt ≤ Int64.maxValue.toInt → page.number = number)) ∧
    (∀ number other size : Int64, number ≤ other → ∀ (content content' : List α) (total total' : Int64),
      (ofRequest content total (PageRequest.ofNumber number size)).number ≤
        (ofRequest content' total' (PageRequest.ofNumber other size)).number) := by
  refine ⟨?_, ?_, ?_⟩
  · intro number size
    rw [PageRequest.check_ofNumber_iff, Int64.le_iff_toInt_le, Int64.lt_iff_toInt_lt, Int64.toInt_zero]
  · intro number size hnumber hsize content total
    rw [Int64.le_iff_toInt_le, Int64.toInt_zero] at hnumber
    rw [Int64.lt_iff_toInt_lt, Int64.toInt_zero] at hsize
    have hreported := toInt_number_ofNumber content total hnumber hsize
    refine ⟨?_, ?_⟩
    · rw [Integer.floor_div hsize]
      exact hreported
    · intro hfits
      -- the product fits exactly if the number is not above the quotient of the greatest number by the size
      have hle : number.toInt ≤ Int64.maxValue.toInt / size.toInt := (Int.le_ediv_iff_mul_le hsize).mpr hfits
      rw [Int.min_eq_left hle] at hreported
      exact Int64.toInt_inj.mp hreported
  · intro number other size hle content content' total total'
    exact number_ofNumber_mono content total hle size content' total'

/-- Pages of two rows: one whose offset fits, and the one with the largest number, which reports half of it.  Two negative
numbers with a positive product make no request that is answered. -/
theorem number_ofNumber_pairs :
    let page (number : Int64) : Page String := ofRequest ["Ada", "Bo"] 5 (PageRequest.ofNumber number 2)
    (PageRequest.ofNumber (-1) (-1)).check ≠ .ok () ∧
      (0 : Int64) ≤ 3 ∧ (0 : Int64) < 2 ∧ (3 : Int64).toInt * (2 : Int64).toInt ≤ Int64.maxValue.toInt ∧
      (page 3).number = 3 ∧ 0 ≤ Int64.maxValue ∧
      (page Int64.maxValue).number.toInt =
        min Int64.maxValue.toInt ⌊(Int64.maxValue.toInt : ℚ) / (2 : Int64).toInt⌋ ∧
      (page Int64.maxValue).number = 4611686018427387903 ∧
      3 ≤ Int64.maxValue ∧ (page 3).number ≤ (page Int64.maxValue).number := by
  intro page
  obtain ⟨hcheck, hreported, hmono⟩ := @number_ofNumber String
  have hrefused : (PageRequest.ofNumber (-1) (-1)).check ≠ .ok () := mt (hcheck (-1) (-1)).mp (by decide)
  exact ⟨hrefused, by decide, by decide, by decide, (hreported 3 2 (by decide) (by decide) _ _).2 (by decide),
    by decide, (hreported Int64.maxValue 2 (by decide) (by decide) _ _).1, by decide, by decide,
    hmono 3 Int64.maxValue 2 (by decide) _ _ _ _⟩

end Page

end Roster
