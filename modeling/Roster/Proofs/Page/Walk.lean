import Roster.Proofs.Page

/-! # Walking through the pages of a list

The pages of one size, each with the stretch of the rows that its request asks for, show every row once.

* `Page.numbered`: a page of rows by its number.
* `Page.content_numbered`: what a page shows, also where its offset stays at the upper bound.
* `Page.hasNext_numbered_iff`: rows follow a page exactly when another page follows it.
* `Page.Walk`: the pages that are met by going on as long as rows follow.
* `Page.walk_shows_rows`: the pages taken together, and the walk from the first page on.
-/

namespace Roster

variable {α : Type}

/-- The rows that a request asks for. -/
def PageRequest.stretch (request : PageRequest) (rows : List α) : List α :=
  (rows.drop request.offset.toInt.toNat).take request.limit.toInt.toNat

namespace Page

variable {rows : List α} {size number : Int64}

/-- The page of the rows with that number, when every page has `size` rows. -/
def numbered (rows : List α) (size number : Int64) : Page α :=
  let request := PageRequest.ofNumber number size
  .ofRequest (request.stretch rows) (Int64.ofNat rows.length) request

/-- How many pages of `size` rows there are. -/
def pagesOf (rows : List α) (size : Int64) : Int64 :=
  (numbered rows size 0).totalPages

/-- A walk from a page on: it goes on to the next page as long as rows follow. -/
inductive Walk (rows : List α) (size : Int64) : Int64 → List (Page α) → Prop where
  | stop {number : Int64} (h : (numbered rows size number).hasNext = false) :
      Walk rows size number [numbered rows size number]
  | next {number : Int64} {visited : List (Page α)} (h : (numbered rows size number).hasNext = true)
      (hrest : Walk rows size (number + 1) visited) : Walk rows size number (numbered rows size number :: visited)

/-! ## One page -/

theorem toInt_total_numbered (hrows : (rows.length : Int) ≤ Int64.maxValue.toInt) (size number : Int64) :
    (numbered rows size number).total.toInt = rows.length := by
  have hmax : Int64.maxValue.toInt < 2 ^ 63 := Int64.maxValue.toInt_lt
  show (Int64.ofNat rows.length).toInt = rows.length
  exact Int64.toInt_ofNat_of_lt (by omega)

/-- A page shows so many rows after those of the pages before it.  Where its offset stays at the upper bound, no row is
left for it. -/
theorem content_numbered (hrows : (rows.length : Int) ≤ Int64.maxValue.toInt) (hsize : 0 < size.toInt)
    (hnumber : 0 ≤ number.toInt) :
    (numbered rows size number).content =
      (rows.drop (number.toInt.toNat * size.toInt.toNat)).take size.toInt.toNat := by
  have hoffset := PageRequest.toInt_offset_ofNumber_of_nonneg hnumber (Int.le_of_lt hsize)
  have hproduct : (number.toInt * size.toInt).toNat = number.toInt.toNat * size.toInt.toNat :=
    Int.toNat_mul hnumber (Int.le_of_lt hsize)
  show (rows.drop (PageRequest.ofNumber number size).offset.toInt.toNat).take size.toInt.toNat = _
  rw [hoffset, ← hproduct]
  by_cases hfits : number.toInt * size.toInt ≤ Int64.maxValue.toInt
  · rw [Int.min_eq_left hfits]
  · -- the page begins behind the last row, where the bound on offsets does not matter
    have hbound : rows.length ≤ (min (number.toInt * size.toInt) Int64.maxValue.toInt).toNat := by omega
    have hbeyond : rows.length ≤ (number.toInt * size.toInt).toNat := by omega
    rw [List.drop_eq_nil_of_le hbound, List.drop_eq_nil_of_le hbeyond]

/-- All pages agree on how many of them there are. -/
theorem totalPages_numbered (rows : List α) (size number : Int64) :
    (numbered rows size number).totalPages = pagesOf rows size := by
  have htotal : (numbered rows size number).total = (numbered rows size 0).total := rfl
  have hlimit : (numbered rows size number).limit = (numbered rows size 0).limit := rfl
  rw [pagesOf, totalPages, totalPages, htotal, hlimit]

theorem lt_pagesOf_iff (hrows : (rows.length : Int) ≤ Int64.maxValue.toInt) (hsize : 0 < size.toInt) (n : Int) :
    n < (pagesOf rows size).toInt ↔ n * size.toInt < rows.length := by
  have htotal := toInt_total_numbered hrows size 0
  have hnonneg : 0 ≤ (numbered rows size 0).total.toInt := by omega
  have hiff := lt_totalPages_iff hnonneg hsize n
  rw [htotal] at hiff
  exact hiff

theorem pagesOf_nonneg (hrows : (rows.length : Int) ≤ Int64.maxValue.toInt) (hsize : 0 < size.toInt) :
    0 ≤ (pagesOf rows size).toInt := by
  have hbefore := lt_pagesOf_iff hrows hsize (-1)
  omega

/-- Rows follow a page exactly when another page follows it. -/
theorem hasNext_numbered_iff (hrows : (rows.length : Int) ≤ Int64.maxValue.toInt) (hsize : 0 < size.toInt)
    (hnumber : 0 ≤ number.toInt) :
    (numbered rows size number).hasNext = true ↔ number.toInt + 1 < (pagesOf rows size).toInt := by
  have hcontent := congrArg List.length (content_numbered hrows hsize hnumber)
  rw [List.length_take, List.length_drop] at hcontent
  have hoffset : (numbered rows size number).offset.toInt = min (number.toInt * size.toInt) Int64.maxValue.toInt :=
    PageRequest.toInt_offset_ofNumber_of_nonneg hnumber (Int.le_of_lt hsize)
  have htotal := toInt_total_numbered hrows size number
  have hproduct : ((number.toInt.toNat * size.toInt.toNat : Nat) : Int) = number.toInt * size.toInt := by
    rw [Int.natCast_mul, Int.toNat_of_nonneg hnumber, Int.toNat_of_nonneg (Int.le_of_lt hsize)]
  have hcount : ((numbered rows size number).content.length : Int) ≤ Int64.maxValue.toInt := by omega
  have hnext : (number.toInt + 1) * size.toInt = number.toInt * size.toInt + size.toInt := by
    rw [Int.add_mul, Int.one_mul]
  -- the content is what is left of the rows, up to a whole page
  rw [hasNext_iff hcount, lt_pagesOf_iff hrows hsize, hoffset, htotal, hnext]
  omega

/-- The pages that there are report their numbers. -/
theorem number_numbered (hrows : (rows.length : Int) ≤ Int64.maxValue.toInt) (hsize : 0 < size.toInt)
    (hnumber : 0 ≤ number.toInt) (hpage : number.toInt < (pagesOf rows size).toInt) :
    (numbered rows size number).number = number := by
  have hbegins : number.toInt * size.toInt < rows.length := (lt_pagesOf_iff hrows hsize _).mp hpage
  have hoffset : (numbered rows size number).offset.toInt = number.toInt * size.toInt :=
    -- a page that has a row begins below the bound on offsets
    PageRequest.toInt_offset_ofNumber hnumber (Int.le_of_lt hsize) (by omega)
  have hnonneg : 0 ≤ number.toInt * size.toInt := Int.mul_nonneg hnumber (Int.le_of_lt hsize)
  have hnext : (number.toInt + 1) * size.toInt = number.toInt * size.toInt + size.toInt := by
    rw [Int.add_mul, Int.one_mul]
  rw [number_eq_iff (by omega) hsize, hoffset]
  show number.toInt * size.toInt ≤ _ ∧ _ < (number.toInt + 1) * size.toInt
  omega

/-! ## All pages -/

/-- The first rows, by stretches of one length. -/
theorem flatMap_stretches (rows : List α) (length count : Nat) :
    (List.range count).flatMap (fun n => (rows.drop (n * length)).take length) = rows.take (count * length) := by
  induction count with
  | zero => rw [List.range_zero, List.flatMap_nil, Nat.zero_mul, List.take_zero]
  | succ count ih =>
    rw [List.range_succ, List.flatMap_append, ih, List.flatMap_singleton, Nat.succ_mul, List.take_add]

/-- The contents of all pages are the rows. -/
theorem flatMap_content_numbered (hrows : (rows.length : Int) ≤ Int64.maxValue.toInt) (hsize : 0 < size.toInt) :
    (List.range (pagesOf rows size).toInt.toNat).flatMap (fun n => (numbered rows size (Int64.ofNat n)).content) =
      rows := by
  -- as many pages as there are have numbers of 64 bits
  have hpages := pagesOf_nonneg hrows hsize
  have hbound := (pagesOf rows size).toInt_lt
  have hcontents : ∀ n ∈ List.range (pagesOf rows size).toInt.toNat,
      (numbered rows size (Int64.ofNat n)).content = (rows.drop (n * size.toInt.toNat)).take size.toInt.toNat := by
    intro n hn
    rw [List.mem_range] at hn
    have hvalue : (Int64.ofNat n).toInt = n := Int64.toInt_ofNat_of_lt (by omega)
    have hnonneg : 0 ≤ (Int64.ofNat n).toInt := by omega
    have hcontent := content_numbered hrows hsize hnonneg
    rw [hvalue] at hcontent
    exact hcontent
  -- so many pages reach the end of the rows
  have hall : rows.length ≤ (pagesOf rows size).toInt.toNat * size.toInt.toNat := by
    have hend := lt_pagesOf_iff hrows hsize (pagesOf rows size).toInt
    rw [← Int.toNat_mul hpages (Int.le_of_lt hsize)]
    omega
  rw [List.flatMap_def, List.map_congr_left hcontents, ← List.flatMap_def, flatMap_stretches,
    List.take_of_length_le hall]

/-! ## Walks -/

theorem walk_of_hasNext (h : (numbered rows size number).hasNext = true) {visited : List (Page α)} :
    Walk rows size number visited ↔
      ∃ rest, visited = numbered rows size number :: rest ∧ Walk rows size (number + 1) rest := by
  constructor
  · rintro (hstop | ⟨-, hrest⟩)
    · rw [h] at hstop
      exact absurd hstop Bool.noConfusion
    · exact ⟨_, rfl, hrest⟩
  · rintro ⟨rest, rfl, hrest⟩
    exact .next h hrest

theorem walk_of_not_hasNext (h : (numbered rows size number).hasNext = false) {visited : List (Page α)} :
    Walk rows size number visited ↔ visited = [numbered rows size number] := by
  constructor
  · rintro (- | ⟨hnext, -⟩)
    · rfl
    · rw [h] at hnext
      exact absurd hnext Bool.noConfusion
  · rintro rfl
    exact .stop h

/-- The same for a page that exists, or for the first page. -/
theorem hasNext_numbered_ofNat_iff (hrows : (rows.length : Int) ≤ Int64.maxValue.toInt) (hsize : 0 < size.toInt)
    {n : Nat} (hn : n < max 1 (pagesOf rows size).toInt.toNat) :
    (numbered rows size (Int64.ofNat n)).hasNext = true ↔ (n : Int) + 1 < (pagesOf rows size).toInt := by
  -- even the only page of no rows at all has a number that fits
  have hbound := (pagesOf rows size).toInt_lt
  have hvalue : (Int64.ofNat n).toInt = n := Int64.toInt_ofNat_of_lt (by omega)
  have hnonneg : 0 ≤ (Int64.ofNat n).toInt := by omega
  have hnext := hasNext_numbered_iff hrows hsize hnonneg
  rw [hvalue] at hnext
  exact hnext

/-- A walk visits the pages from its first one to the last one. -/
theorem walk_iff (hrows : (rows.length : Int) ≤ Int64.maxValue.toInt) (hsize : 0 < size.toInt) (first more : Nat)
    (hlast : first + more + 1 = max 1 (pagesOf rows size).toInt.toNat) (visited : List (Page α)) :
    Walk rows size (Int64.ofNat first) visited ↔
      visited = (List.range' first (more + 1)).map fun n => numbered rows size (Int64.ofNat n) := by
  -- by induction on how many pages follow
  induction more generalizing first visited with
  | zero =>
    -- the last page: no rows follow, and the walk stops
    have hfirst : first < max 1 (pagesOf rows size).toInt.toNat := by omega
    have hnext := hasNext_numbered_ofNat_iff hrows hsize hfirst
    have hend : (numbered rows size (Int64.ofNat first)).hasNext = false := by
      rw [Bool.eq_false_iff, Ne, hnext]
      omega
    rw [walk_of_not_hasNext hend]
    rfl
  | succ more ih =>
    -- rows follow, so the walk goes on at the next number
    have hfirst : first < max 1 (pagesOf rows size).toInt.toNat := by omega
    have hnext := hasNext_numbered_ofNat_iff hrows hsize hfirst
    have hfollow : (numbered rows size (Int64.ofNat first)).hasNext = true := hnext.mpr (by omega)
    have hrest : ∀ rest, Walk rows size (Int64.ofNat first + 1) rest ↔
        rest = (List.range' (first + 1) (more + 1)).map fun n => numbered rows size (Int64.ofNat n) := by
      intro rest
      have hsucc : Int64.ofNat first + 1 = Int64.ofNat (first + 1) := (Int64.ofNat_add first 1).symm
      rw [hsucc]
      exact ih (first + 1) (by omega) rest
    rw [walk_of_hasNext hfollow, List.range'_succ, List.map_cons]
    constructor
    · rintro ⟨rest, rfl, hwalk⟩
      rw [(hrest rest).mp hwalk]
    · rintro rfl
      exact ⟨_, rfl, (hrest _).mpr rfl⟩

/-- A list without rows has one page to visit, and nothing is on it. -/
theorem flatMap_content_visited (hrows : (rows.length : Int) ≤ Int64.maxValue.toInt) (hsize : 0 < size.toInt) :
    ((List.range (max 1 (pagesOf rows size).toInt.toNat)).map fun n => numbered rows size (Int64.ofNat n)).flatMap
      content = rows := by
  have hcontents := flatMap_content_numbered hrows hsize
  rw [List.flatMap_map]
  -- without rows there is no page, but the walk still sees one that is empty
  rcases Nat.eq_zero_or_pos (pagesOf rows size).toInt.toNat with hnone | hsome
  · rw [hnone, List.range_zero, List.flatMap_nil] at hcontents
    have hcontent : (numbered rows size (Int64.ofNat 0)).content = [] := by
      rw [content_numbered hrows hsize (by decide), ← hcontents, List.drop_nil, List.take_nil]
    rw [hnone, Nat.max_eq_left (Nat.zero_le 1), List.range_one, List.flatMap_singleton, hcontent, hcontents]
  · rw [Nat.max_eq_right hsome]
    exact hcontents

/-- For a list of rows whose length is a 64-bit integer and for pages of `size` rows: all pages agree on how many of them
there are, and their contents one after another are the rows.  Each of these pages reports its own number, and rows
follow a page exactly when another page follows it, whatever the number of the page.  Going on from the first page as
long as rows follow visits just these pages, or the first one alone if there are none, and shows just the rows. -/
theorem walk_shows_rows (rows : List α) {size : Int64} (hrows : (rows.length : Int) ≤ Int64.maxValue.toInt)
    (hsize : 1 ≤ size) :
    (∀ number, (numbered rows size number).totalPages = pagesOf rows size) ∧
    (List.range (pagesOf rows size).toInt.toNat).flatMap (fun n => (numbered rows size (Int64.ofNat n)).content) = rows ∧
    (∀ number, 0 ≤ number → number < pagesOf rows size → (numbered rows size number).number = number) ∧
    (∀ number, 0 ≤ number →
      ((numbered rows size number).hasNext = true ↔ number.toInt + 1 < (pagesOf rows size).toInt)) ∧
    (∀ visited, Walk rows size 0 visited ↔
      visited = (List.range (max 1 (pagesOf rows size).toInt.toNat)).map fun n => numbered rows size (Int64.ofNat n)) ∧
    ∀ visited, Walk rows size 0 visited → visited.flatMap content = rows := by
  have hpositive : 0 < size.toInt := by
    rw [Int64.le_iff_toInt_le, Int64.toInt_one] at hsize
    omega
  let pages := (pagesOf rows size).toInt.toNat
  have hwalk : ∀ visited, Walk rows size 0 visited ↔
      visited = (List.range (max 1 pages)).map fun n => numbered rows size (Int64.ofNat n) := by
    intro visited
    -- the walk that begins at zero sees all the pages, one at least
    have hmore : 0 + (max 1 pages - 1) + 1 = max 1 pages := by omega
    have hvisited := walk_iff hrows hpositive 0 _ hmore visited
    rw [← Nat.zero_add (max 1 pages - 1), hmore, ← List.range_eq_range'] at hvisited
    exact hvisited
  refine ⟨?_, ?_, ?_, ?_, hwalk, ?_⟩
  · exact totalPages_numbered rows size
  · exact flatMap_content_numbered hrows hpositive
  · intro number hnumber hpage
    rw [Int64.le_iff_toInt_le, Int64.toInt_zero] at hnumber
    rw [Int64.lt_iff_toInt_lt] at hpage
    exact number_numbered hrows hpositive hnumber hpage
  · intro number hnumber
    rw [Int64.le_iff_toInt_le, Int64.toInt_zero] at hnumber
    exact hasNext_numbered_iff hrows hpositive hnumber
  · intro visited hvisited
    rw [(hwalk visited).mp hvisited]
    exact flatMap_content_visited hrows hpositive

/-- Five rows in pages of two: the third page is short, no row follows it, and none follows the page with the largest
number, whose offset stays at the upper bound. -/
theorem walk_shows_rows_five :
    let rows := ["Ada", "Bo", "Cy", "Di", "Eve"]
    (rows.length : Int) ≤ Int64.maxValue.toInt ∧ (1 : Int64) ≤ 2 ∧ pagesOf rows 2 = 3 ∧
      (numbered rows 2 2).content = ["Eve"] ∧ (numbered rows 2 2).number = 2 ∧
      (numbered rows 2 2).hasNext = false ∧ (numbered rows 2 Int64.maxValue).hasNext = false ∧
      Walk rows 2 0 [⟨["Ada", "Bo"], 5, 0, 2⟩, ⟨["Cy", "Di"], 5, 2, 2⟩, ⟨["Eve"], 5, 4, 2⟩] := by
  intro rows
  have hrows : (rows.length : Int) ≤ Int64.maxValue.toInt := by decide
  have hsize : (1 : Int64) ≤ 2 := by decide
  rcases walk_shows_rows rows hrows hsize with ⟨-, -, hnumber, hnext, hwalk, -⟩
  have hpages : pagesOf rows 2 = 3 := by decide
  rw [hpages] at hnumber hnext hwalk
  have hlast : ¬(numbered rows 2 2).hasNext = true := mt (hnext 2 (by decide)).mp (by decide)
  have hbeyond : ¬(numbered rows 2 Int64.maxValue).hasNext = true := mt (hnext _ (by decide)).mp (by decide)
  rw [Bool.not_eq_true] at hlast hbeyond
  exact ⟨hrows, hsize, hpages, by decide, hnumber 2 (by decide) (by decide), hlast, hbeyond, (hwalk _).mpr (by decide)⟩

end Page

end Roster
