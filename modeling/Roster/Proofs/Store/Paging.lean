import Roster.Proofs.Config
import Roster.Proofs.Criteria.Filter
import Roster.Proofs.Page
import Roster.Proofs.Sql.Counting
import Roster.Proofs.Store.Run

/-! # Walking through pages

A search for a page selects a window of the ordered result, from its offset on and as long as its limit.  The offset of
a numbered page is counted in the size that the caller asks for, while a cap on unfiltered searches shortens the limit
alone.  So the windows of a walk never overlap, but they leave gaps as soon as the cap is below the size.

* `windows_searchPage`: the window that a search for a page selects.
* `Window.contains_page_iff`: the rows that the pages of a walk show.
* `searchPage_ofNumber`: when pages adjoin and when they report the number that was asked for.
-/

namespace Roster

/-! ## Windows -/

/-- A stretch of an ordered result: the rows from `start` on that come before `stop`. -/
structure Window where
  start : Int
  stop : Int
deriving Repr, DecidableEq

def Window.Contains (window : Window) (row : Int) : Prop :=
  window.start ≤ row ∧ row < window.stop

/-- The number that a statement has for a slot. -/
def Statement.numberAt? (statement : Statement) (slot : Int) : Option Int :=
  match statement.params[(slot - 1).toNat]? with
  | some (some (.int n)) => some n.toInt
  | _ => none

/-- The window of a statement that ends in a limit and an offset. -/
def Statement.window? (statement : Statement) : Option Window :=
  match statement.sql.reverse with
  | .slot offset :: .text " OFFSET " :: .slot limit :: .text " LIMIT " :: _ =>
    match statement.numberAt? offset.toInt, statement.numberAt? limit.toInt with
    | some start, some length => some ⟨start, start + length⟩
    | _, _ => none
  | _ => none

def Run.windows {α : Type} (run : Run α) : List Window :=
  run.statements.filterMap Statement.window?

/-- The window of a page, counted from zero, when pages begin `size` rows apart and show `rows` rows each. -/
def Window.page (size rows number : Int) : Window :=
  ⟨number * size, number * size + rows⟩

/-- A row is on the page whose number is the quotient of row and size, if it is among the first `rows` rows there. -/
theorem Window.contains_page_iff {size rows : Int} (hsize : 0 < size) (hrows : rows ≤ size) (number row : Int) :
    (Window.page size rows number).Contains row ↔ row / size = number ∧ row % size < rows := by
  have hdiv : size * (row / size) + row % size = row := Int.mul_ediv_add_emod row size
  have hnonneg : 0 ≤ row % size := Int.emod_nonneg _ (Int.ne_of_gt hsize)
  change number * size ≤ row ∧ row < number * size + rows ↔ _
  constructor
  · rintro ⟨hstart, hstop⟩
    -- a page ends before the next one begins
    have hquotient : row / size = number := by
      apply Int.le_antisymm
      · have hlt : row < (number + 1) * size := by
          rw [Int.add_mul, Int.one_mul]
          exact Int.lt_of_lt_of_le hstop (Int.add_le_add_left hrows _)
        exact Int.lt_add_one_iff.mp ((Int.ediv_lt_iff_lt_mul hsize).mpr hlt)
      · exact (Int.le_ediv_iff_mul_le hsize).mpr hstart
    rw [hquotient, Int.mul_comm] at hdiv
    exact ⟨hquotient, by omega⟩
  · rintro ⟨rfl, hrow⟩
    rw [Int.mul_comm]
    constructor <;> omega

/-! ## Statements of a search -/

namespace Store

/-- Groups of conditions end in a parenthesis. -/
theorem joinWith_enclosed (separator : String) (c : Sql.Clause) (cs : List Sql.Clause) :
    ∃ front, Sql.joinWith separator ((c :: cs).map fun c => Sql.enclosed c.sql) = front ++ [.text ")"] := by
  induction cs generalizing c with
  | nil => exact ⟨.text "(" :: c.sql, rfl⟩
  | cons d ds ih =>
    obtain ⟨front, hfront⟩ := ih d
    -- the last text of the list closes the parenthesis of its last term
    refine ⟨Sql.enclosed c.sql ++ .text separator :: front, ?_⟩
    rw [List.append_assoc, List.cons_append, ← hfront]
    rfl

theorem group_ends (empty joiner : String) (cs : List Sql.Clause) :
    ∃ front words, (Sql.Clause.group empty joiner cs).sql = front ++ [.text words] := by
  cases cs with
  | nil => exact ⟨[], empty, rfl⟩
  | cons c cs =>
    obtain ⟨front, hfront⟩ := joinWith_enclosed joiner c cs
    exact ⟨front, ")", hfront⟩

/-- A condition ends in words, or in a slot after the symbol of a comparison. -/
theorem condition_ends (filter : Predicate) :
    ∃ front words, (condition filter).sql = front ++ [.text words] ∨
      ∃ (op : Comparison) (slot : Int32), words = " " ++ op.symbol ++ " " ∧
        (condition filter).sql = front ++ [.text words, .slot slot] := by
  unfold condition
  -- a group and a negation end in a text, and a comparison ends in its slot
  cases filter with
  | always => exact ⟨[], "TRUE", .inl rfl⟩
  | compare field op value => exact ⟨[.column field], " " ++ op.symbol ++ " ", .inr ⟨op, 1, rfl, rfl⟩⟩
  | all terms =>
    obtain ⟨front, words, h⟩ := group_ends "TRUE" " AND " (Sql.clausesFrom 1 terms)
    exact ⟨front, words, .inl h⟩
  | any terms =>
    obtain ⟨front, words, h⟩ := group_ends "FALSE" " OR " (Sql.clausesFrom 1 terms)
    exact ⟨front, words, .inl h⟩
  | not term => exact ⟨.text "NOT " :: .text "(" :: (Sql.clauseFrom 1 term).sql, ")", .inl rfl⟩

/-- A count selects no window. -/
theorem window?_selectCount (source : Sql) (filter : Predicate) :
    (selectCount source (condition filter)).window? = none := by
  obtain ⟨front, words, hsql | ⟨op, slot, rfl, hsql⟩⟩ := condition_ends filter
  · unfold Statement.window? selectCount selectWhere
    simp only [hsql, List.reverse_append, List.reverse_cons, List.reverse_nil, List.nil_append, List.cons_append]
  · -- a slot at the end of a condition follows the symbol of a comparison and no "OFFSET"
    have hop : " " ++ op.symbol ++ " " ≠ " OFFSET " := by
      cases op <;> decide
    unfold Statement.window? selectCount selectWhere
    simp only [hsql, List.reverse_append, List.reverse_cons, List.reverse_nil, List.nil_append, List.cons_append]
    split
    · next heq => exact absurd (Sql.Piece.text.inj (List.cons.inj (List.cons.inj heq).2).1) hop
    · rfl

/-- The slots of the criteria fit, and so do a limit and an offset behind them. -/
theorem fits_filter (criteria : Criteria) : Sql.Fits 1 (criteria.filter.leaves.length + 1) := by
  have hfits : Sql.Fits 1 (Criteria.Key.values.length + 1) := by decide
  exact hfits.mono (Nat.add_le_add_right criteria.length_leaves_filter_le 1)

theorem fits_condition {filter : Predicate} {k : Nat} (h : Sql.Fits 1 (filter.leaves.length + k)) :
    Sql.Fits 1 ((condition filter).params.length + k) := by
  rwa [condition, Sql.length_params_clauseFrom]

/-- The values after those of a condition have the slots from the next one on. -/
theorem numberAt?_next (sql : Sql) {clause : Sql.Clause} {values : List (Option Value)} {k : Nat} {n : Int64}
    (hfits : Sql.Fits 1 (clause.params.length + k)) (h : values[k]? = some (int n)) :
    (Statement.mk sql (bound clause ++ values)).numberAt? (clause.next 1 + .ofNat k).toInt = some n.toInt := by
  have hone : (1 : Int32).toInt = 1 := by decide
  -- the values of the clause take the slots before
  have hslot : ((clause.next 1 + .ofNat k).toInt - 1).toNat = (bound clause).length + k := by
    rw [bound, List.length_map, clause.toInt_next hfits, hone]
    omega
  have hvalue : (bound clause ++ values)[(bound clause).length + k]? = some (int n) := by
    rw [List.getElem?_append_right (Nat.le_add_right _ _), Nat.add_sub_cancel_left, h]
  rw [Statement.numberAt?, hslot, hvalue]
  rfl

theorem numberAt?_first (sql : Sql) {clause : Sql.Clause} (hfits : Sql.Fits 1 clause.params.length) (n : Int64)
    (values : List (Option Value)) :
    (Statement.mk sql (bound clause ++ int n :: values)).numberAt? (clause.next 1).toInt = some n.toInt := by
  rw [← Int32.add_zero (clause.next 1)]
  exact numberAt?_next sql (k := 0) hfits rfl

/-- The selection of a page selects the window from the offset on that is as long as the limit. -/
theorem window?_selectPage (columns : String) (source : Sql) {clause : Sql.Clause}
    (hfits : Sql.Fits 1 (clause.params.length + 1)) (request : PageRequest) :
    (selectPage columns source clause request).window? =
      some ⟨request.offset.toInt, request.offset.toInt + request.limit.toInt⟩ := by
  let statement := selectPage columns source clause request
  have hlimit : statement.numberAt? (clause.next 1).toInt = some request.limit.toInt := numberAt?_first _ hfits.left ..
  have hoffset : statement.numberAt? (clause.next 1 + 1).toInt = some request.offset.toInt :=
    numberAt?_next _ (k := 1) hfits rfl
  -- the last four parts are the two keywords, each with its slot
  have hend : statement.sql.reverse = .slot (clause.next 1 + 1) :: .text " OFFSET " :: .slot (clause.next 1) ::
      .text " LIMIT " :: (orderedBy (selectWhere columns source clause) request.sort).reverse := by
    simp [statement, selectPage]
  change statement.window? = _
  unfold Statement.window?
  rw [hend]
  simp only [hlimit, hoffset]

/-- A search for a page that is permitted selects one window, once the count has given a number. -/
theorem windows_searchPage {config : Config} {criteria : Criteria} {request : PageRequest} {cap : Option Int64}
    (hrequest : request.check = .ok ()) (hcap : permission config criteria.filter = .ok cap) (replies : List Reply) :
    ((searchPage config criteria request).exec replies).windows =
      if (counted replies).isOk then
        [⟨(capped request cap).offset.toInt, (capped request cap).offset.toInt + (capped request cap).limit.toInt⟩]
      else [] := by
  have hselect := window?_selectPage entryColumns (membersWithTeams config) (fits_condition (fits_filter criteria))
    (capped request cap)
  unfold Run.windows
  rw [exec_searchPage hrequest hcap]
  -- the selection is sent only if the count came back
  cases counted replies with
  | error e => simp [window?_selectCount, Except.isOk, Except.toBool]
  | ok total => simp [window?_selectCount, hselect, Except.isOk, Except.toBool]

/-- A search for a page that is permitted gives a page exactly when both replies can be read. -/
theorem isOk_searchPage {config : Config} {criteria : Criteria} {request : PageRequest} {cap : Option Int64}
    (hrequest : request.check = .ok ()) (hcap : permission config criteria.filter = .ok cap) (replies : List Reply) :
    ((searchPage config criteria request).exec replies).result.isOk =
      ((counted replies).isOk && (entries (replies.drop 1)).isOk) := by
  rw [exec_searchPage hrequest hcap]
  cases counted replies with
  | error e => rfl
  | ok total => cases entries (replies.drop 1) <;> rfl

/-- A page has the offset and the limit of the request, with the limit shortened to the cap. -/
theorem stretch_of_searchPage {config : Config} {criteria : Criteria} {request : PageRequest} {cap : Option Int64}
    (hrequest : request.check = .ok ()) (hcap : permission config criteria.filter = .ok cap) {replies : List Reply}
    {page : Page Entry} (hpage : ((searchPage config criteria request).exec replies).result = .ok page) :
    page.offset = (capped request cap).offset ∧ page.limit = (capped request cap).limit := by
  rw [exec_searchPage hrequest hcap] at hpage
  -- a page is returned only if the count and the rows could be read
  cases hcounted : counted replies with
  | error e =>
    rw [hcounted] at hpage
    cases hpage
  | ok total =>
    rw [hcounted] at hpage
    cases hentries : entries (replies.drop 1) with
    | error e =>
      rw [hentries] at hpage
      cases hpage
    | ok content =>
      rw [hentries] at hpage
      obtain rfl := Except.ok.inj hpage
      exact ⟨rfl, rfl⟩

/-! ## Walks -/

/-- How many rows a page of `size` rows shows: a cap on unfiltered searches may leave fewer. -/
def pageRows (config : Config) (criteria : Criteria) (size : Int) : Int :=
  match criteria.isUnfiltered, config.unfiltered with
  | true, .cap limit => min size limit.toInt
  | _, _ => size

/-- The cap, if one applies, is not below the size. -/
def Uncut (config : Config) (criteria : Criteria) (size : Int) : Prop :=
  ∀ limit, criteria.isUnfiltered = true → config.unfiltered = .cap limit → size ≤ limit.toInt

/-- Either a cap applies and bounds the rows of a page, or none does. -/
theorem pageRows_cases (config : Config) (criteria : Criteria) (size : Int) :
    (∃ limit, criteria.isUnfiltered = true ∧ config.unfiltered = .cap limit ∧
      pageRows config criteria size = min size limit.toInt) ∨
    ((∀ limit, criteria.isUnfiltered = true → config.unfiltered ≠ .cap limit) ∧
      pageRows config criteria size = size) := by
  unfold pageRows
  -- only an unfiltered search is cut
  cases hunfiltered : criteria.isUnfiltered with
  | false => exact .inr ⟨fun _ h => (nomatch h), rfl⟩
  | true =>
    cases hpolicy : config.unfiltered with
    | allow | reject => exact .inr ⟨fun _ _ h => (nomatch h), rfl⟩
    | cap limit => exact .inl ⟨limit, rfl, rfl, rfl⟩

theorem pageRows_le (config : Config) (criteria : Criteria) (size : Int) : pageRows config criteria size ≤ size := by
  rcases pageRows_cases config criteria size with ⟨limit, -, -, h⟩ | ⟨-, h⟩
  · have hmin : min size limit.toInt ≤ size := Int.min_le_left _ _
    omega
  · exact Int.le_of_eq h

/-- A page shows all of its rows exactly when no cap cuts it short. -/
theorem pageRows_eq_iff (config : Config) (criteria : Criteria) (size : Int) :
    pageRows config criteria size = size ↔ Uncut config criteria size := by
  -- the rows are cut to the cap, or not at all
  rcases pageRows_cases config criteria size with ⟨limit, hunfiltered, hpolicy, h⟩ | ⟨hnone, h⟩
  · rw [h]
    constructor
    · intro heq limit' _ hpolicy'
      rw [hpolicy] at hpolicy'
      obtain rfl := UnfilteredPolicy.cap.inj hpolicy'
      omega
    · intro huncut
      exact Int.min_eq_left (huncut limit hunfiltered hpolicy)
  · refine ⟨fun _ limit hunfiltered hpolicy => ?_, fun _ => h⟩
    exact absurd hpolicy (hnone limit hunfiltered)

theorem pageRows_pos {config : Config} (hconfig : config.check = .ok ()) (criteria : Criteria) {size : Int}
    (hsize : 0 < size) : 0 < pageRows config criteria size := by
  rcases pageRows_cases config criteria size with ⟨limit, -, hpolicy, h⟩ | ⟨-, h⟩
  · have hcap : 0 < limit := ((Config.check_eq_ok_iff config).mp hconfig).2.2.2 limit hpolicy
    rw [Int64.lt_iff_toInt_lt, Int64.toInt_zero] at hcap
    omega
  · omega

/-- Unless unfiltered searches are refused, a search is permitted, and its pages show the rows that the cap leaves. -/
theorem exists_permission {config : Config} (hpolicy : config.unfiltered ≠ .reject) (criteria : Criteria)
    (request : PageRequest) :
    ∃ cap, permission config criteria.filter = .ok cap ∧ (capped request cap).offset = request.offset ∧
      (capped request cap).limit.toInt = pageRows config criteria request.limit.toInt := by
  unfold permission pageRows Criteria.isUnfiltered
  -- the policy allows the search, with a cap or without
  cases criteria.filter.isAlways with
  | false => exact ⟨none, rfl, rfl, rfl⟩
  | true =>
    cases hcase : config.unfiltered with
    | allow => exact ⟨none, rfl, rfl, rfl⟩
    | cap limit => exact ⟨some limit, rfl, rfl, Integer.toInt_min _ _⟩
    | reject => exact absurd hcase hpolicy

/-- A search for a page of `size` rows with a number. -/
def pageRun (config : Config) (criteria : Criteria) (size number : Int64) (replies : List Reply) : Run (Page Entry) :=
  (searchPage config criteria (.ofNumber number size)).exec replies

/-- The window of a numbered page begins at the number times the size. -/
theorem windows_pageRun {config : Config} (hpolicy : config.unfiltered ≠ .reject) (criteria : Criteria)
    {size number : Int64} (hsize : 0 < size.toInt) (hnumber : 0 ≤ number.toInt)
    (hend : number.toInt * size.toInt ≤ Int64.maxValue.toInt) (replies : List Reply) :
    (pageRun config criteria size number replies).windows =
      if (counted replies).isOk then
        [Window.page size.toInt (pageRows config criteria size.toInt) number.toInt]
      else [] := by
  obtain ⟨cap, hcap, hoffset, hlimit⟩ := exists_permission hpolicy criteria (.ofNumber number size)
  have hwindows := windows_searchPage (PageRequest.check_ofNumber_iff.mpr ⟨hnumber, hsize⟩) hcap replies
  rw [hoffset, hlimit, PageRequest.toInt_offset_ofNumber hnumber (Int.le_of_lt hsize) hend] at hwindows
  exact hwindows

theorem isOk_pageRun {config : Config} (hpolicy : config.unfiltered ≠ .reject) (criteria : Criteria)
    {size number : Int64} (hsize : 0 < size.toInt) (hnumber : 0 ≤ number.toInt) (replies : List Reply) :
    (pageRun config criteria size number replies).result.isOk =
      ((counted replies).isOk && (entries (replies.drop 1)).isOk) := by
  obtain ⟨cap, hcap, -, -⟩ := exists_permission hpolicy criteria (.ofNumber number size)
  exact isOk_searchPage (PageRequest.check_ofNumber_iff.mpr ⟨hnumber, hsize⟩) hcap replies

/-- A page that is answered reports its number as long as the rows that pages show reach up to it. -/
theorem number_pageRun {config : Config} (hconfig : config.check = .ok ()) (hpolicy : config.unfiltered ≠ .reject)
    (criteria : Criteria) {size number : Int64} (hsize : 0 < size.toInt) (hnumber : 0 ≤ number.toInt)
    (hend : number.toInt * size.toInt ≤ Int64.maxValue.toInt) {replies : List Reply} {page : Page Entry}
    (hpage : (pageRun config criteria size number replies).result = .ok page) :
    page.number = number ↔
      number.toInt * size.toInt < (number.toInt + 1) * pageRows config criteria size.toInt := by
  obtain ⟨cap, hcap, hoffset, hlimit⟩ := exists_permission hpolicy criteria (.ofNumber number size)
  have hcheck := PageRequest.check_ofNumber_iff.mpr ⟨hnumber, hsize⟩
  obtain ⟨hpageOffset, hpageLimit⟩ := stretch_of_searchPage hcheck hcap hpage
  have hstart : page.offset.toInt = number.toInt * size.toInt := by
    rw [hpageOffset, hoffset]
    exact PageRequest.toInt_offset_ofNumber hnumber (Int.le_of_lt hsize) hend
  have hrows : page.limit.toInt = pageRows config criteria size.toInt := by
    rw [hpageLimit, hlimit]
    rfl
  -- pages that show fewer rows than the size reach less far
  have hbefore : number.toInt * pageRows config criteria size.toInt ≤ number.toInt * size.toInt :=
    Int.mul_le_mul_of_nonneg_left (pageRows_le config criteria size.toInt) hnumber
  have hoffsetNonneg : 0 ≤ page.offset.toInt := by
    rw [hstart]
    exact Int.mul_nonneg hnumber (Int.le_of_lt hsize)
  have hlimitPos : 0 < page.limit.toInt := by
    rw [hrows]
    exact pageRows_pos hconfig criteria hsize
  rw [Page.number_eq_iff hoffsetNonneg hlimitPos, hstart, hrows]
  constructor
  · intro h
    exact h.2
  · intro h
    exact ⟨hbefore, h⟩

/-- Walking through pages of one size, where the last of them ends within 64 bits.  Once the count has given a number,
a page selects the window that begins at its number times the size; it shows the rows there that the cap leaves of the
size, and no other page shows them.  It ends where the next page begins exactly when no cap cuts it short.  A page is
returned exactly when both replies can be read, and it reports its number exactly when so many pages of the rows that
are left reach beyond its offset. -/
theorem searchPage_ofNumber {config : Config} (hconfig : config.check = .ok ())
    (hpolicy : config.unfiltered ≠ .reject) (criteria : Criteria) {size number : Int64} (hsize : 0 < size)
    (hnumber : 0 ≤ number) (hend : (number.toInt + 1) * size.toInt ≤ Int64.maxValue.toInt) :
    let rows := pageRows config criteria size.toInt
    let window := Window.page size.toInt rows number.toInt
    (∀ replies, (pageRun config criteria size number replies).windows =
      if (counted replies).isOk then [window] else []) ∧
    (∀ row, window.Contains row ↔ row / size.toInt = number.toInt ∧ row % size.toInt < rows) ∧
    (∀ replies, (counted replies).isOk →
      ∃ next, (pageRun config criteria size (number + 1) replies).windows = [next] ∧
        (window.stop = next.start ↔ Uncut config criteria size.toInt)) ∧
    (∀ replies, (pageRun config criteria size number replies).result.isOk =
      ((counted replies).isOk && (entries (replies.drop 1)).isOk)) ∧
    (∀ replies page, (pageRun config criteria size number replies).result = .ok page →
      (page.number = number ↔ number.toInt * size.toInt < (number.toInt + 1) * rows)) := by
  intro rows window
  rw [Int64.lt_iff_toInt_lt, Int64.toInt_zero] at hsize
  rw [Int64.le_iff_toInt_le, Int64.toInt_zero] at hnumber
  -- the number of the next page fits, since the size is one at least
  have hsum : (number.toInt + 1) * size.toInt = number.toInt * size.toInt + size.toInt := by
    rw [Int.add_mul, Int.one_mul]
  have hstart : number.toInt * size.toInt ≤ Int64.maxValue.toInt := by
    omega
  have hnext : (number + 1).toInt = number.toInt + 1 := by
    have hle : (number.toInt + 1) * 1 ≤ (number.toInt + 1) * size.toInt :=
      Int.mul_le_mul_of_nonneg_left hsize (by omega)
    exact Integer.toInt_succ (by omega)
  refine ⟨?_, ?_, ?_, ?_, ?_⟩
  · intro replies
    exact windows_pageRun hpolicy criteria hsize hnumber hstart replies
  · intro row
    exact Window.contains_page_iff hsize (pageRows_le config criteria size.toInt) number.toInt row
  · intro replies hcounted
    have hnextNonneg : 0 ≤ (number + 1).toInt := by
      omega
    have hnextStart : (number + 1).toInt * size.toInt ≤ Int64.maxValue.toInt := by
      rw [hnext]
      exact hend
    -- the next page begins where this one would end if it was not cut
    have hwindows := windows_pageRun hpolicy criteria hsize hnextNonneg hnextStart replies
    rw [if_pos hcounted, hnext] at hwindows
    refine ⟨_, hwindows, ?_⟩
    rw [← pageRows_eq_iff]
    change number.toInt * size.toInt + rows = (number.toInt + 1) * size.toInt ↔ rows = size.toInt
    omega
  · intro replies
    exact isOk_pageRun hpolicy criteria hsize hnumber replies
  · intro replies page hpage
    exact number_pageRun hconfig hpolicy criteria hsize hnumber hstart hpage

/-- The third page of five rows, with a cap of ten. -/
theorem searchPage_ofNumber_below_cap :
    let config := { Config.ofUrl "postgres://localhost/roster" with unfiltered := .cap 10 }
    config.check = .ok () ∧ config.unfiltered ≠ .reject ∧ (0 : Int64) < 5 ∧ (0 : Int64) ≤ 2 ∧
      ((2 : Int64).toInt + 1) * (5 : Int64).toInt ≤ Int64.maxValue.toInt ∧
      (∀ replies, (counted replies).isOk → (pageRun config .empty 5 2 replies).windows = [⟨10, 15⟩] ∧
        ∃ next, (pageRun config .empty 5 3 replies).windows = [next] ∧ next.start = 15) ∧
      (∀ replies page, (pageRun config .empty 5 2 replies).result = .ok page → page.number = 2) := by
  intro config
  have hconfig : config.check = .ok () := by
    refine Config.check_ofUrl _ ?_
    rintro limit ⟨rfl⟩
    decide
  have hpolicy : config.unfiltered ≠ .reject := by decide
  have hsize : (0 : Int64) < 5 := by decide
  have hnumber : (0 : Int64) ≤ 2 := by decide
  have hend : ((2 : Int64).toInt + 1) * (5 : Int64).toInt ≤ Int64.maxValue.toInt := by decide
  obtain ⟨hwindows, -, hnext, -, hreported⟩ := searchPage_ofNumber hconfig hpolicy .empty hsize hnumber hend
  have hrows : pageRows config .empty 5 = 5 := by decide
  refine ⟨hconfig, hpolicy, hsize, hnumber, hend, ?_, ?_⟩
  · intro replies hcounted
    obtain ⟨next, hnextWindows, hadjoin⟩ := hnext replies hcounted
    have hwindow := hwindows replies
    rw [if_pos hcounted] at hwindow
    refine ⟨hwindow, next, hnextWindows, ?_⟩
    exact (hadjoin.mpr ((pageRows_eq_iff config .empty 5).mp hrows)).symm
  · intro replies page hpage
    exact (hreported replies page hpage).mpr (by decide)

/-- With a cap of two, the first page of five rows shows the rows 0 and 1, the second shows 5 and 6, and it takes itself
for the third. -/
theorem searchPage_capped_skips :
    let config := { Config.ofUrl "postgres://localhost/roster" with unfiltered := .cap 2 }
    let row : Row := ⟨none, none, none, none, none, none, some 9, none, none, none, none⟩
    let replies : List Reply := [.outcome ⟨[row], 0⟩, .outcome .empty]
    config.check = .ok () ∧ config.unfiltered ≠ .reject ∧
      (pageRun config .empty 5 0 replies).windows = [⟨0, 2⟩] ∧
      (pageRun config .empty 5 1 replies).windows = [⟨5, 7⟩] ∧
      (pageRun config .empty 5 1 replies).result = .ok ⟨[], 9, 5, 2⟩ ∧
      (⟨[], 9, 5, 2⟩ : Page Entry).number = 2 := by
  intro config row replies
  have hconfig : config.check = .ok () := by
    refine Config.check_ofUrl _ ?_
    rintro limit ⟨rfl⟩
    decide
  exact ⟨hconfig, by decide, by decide, by decide, by rfl, by decide⟩

end Store

end Roster
