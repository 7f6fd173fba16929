import Roster.Proofs.Criteria.Filter
import Roster.Proofs.Store.Limit
import Roster.Store.Call

/-! # The policy for unfiltered searches

A search whose criteria ask for nothing would return every member.  The policy of the configuration decides whether it
is answered with a warning, answered up to a cap with a warning, or refused before anything is sent.  There are three
searches, and the policy binds each of them.

* `Call.SearchesFor`: the calls that search.
* `exec_of_refused`, `exec_of_permitted`: what they do with the decision of the policy.
* `searches_policy`: what this amounts to for criteria and a configuration.
-/

namespace Roster

/-- The statements of a run that return rows of the tables, which are all but the counts. -/
def Run.selections {α : Type} (run : Run α) : List Statement :=
  run.statements.filter (!·.isCount)

def Run.warnings {α : Type} (run : Run α) : List Event :=
  run.events.filter (·.level == .warn)

namespace Store

/-! ## Searches -/

namespace Call

/-- The call searches for what the criteria ask for; a request for a page is one that can be answered. -/
inductive SearchesFor (criteria : Criteria) : Call → Prop where
  | search : SearchesFor criteria (.search criteria)
  | searchMembers : SearchesFor criteria (.searchMembers criteria)
  | searchPage {request : PageRequest} (hrequest : request.check = .ok ()) :
      SearchesFor criteria (.searchPage criteria request)

/-- How many rows the call asks for at most; only a request for a page says so. -/
def limit? : Call → Option Int64
  | .searchPage _ request => some request.limit
  | _ => none

/-- How many rows the call gets at most under a cap. -/
def limitUnder (call : Call) (cap : Int64) : Int64 :=
  match call.limit? with
  | none => cap
  | some limit => min limit cap

/-- How many rows the call gets at most, if the policy sets a cap or none. -/
def limitWithin? (call : Call) : Option Int64 → Option Int64
  | none => call.limit?
  | some cap => some (call.limitUnder cap)

/-- Whether the call comes to select rows: a search for a page counts first, and ends where that fails. -/
def selects (replies : List Reply) : Call → Bool
  | .searchPage _ _ => (counted replies).isOk
  | _ => true

theorem limitUnder_le (call : Call) (cap : Int64) : call.limitUnder cap ≤ cap := by
  unfold limitUnder
  cases call.limit? with
  | none => exact Int64.le_refl cap
  | some limit =>
    rw [Int64.le_iff_toInt_le, Integer.toInt_min]
    exact Int.min_le_right _ _

theorem limitUnder_pos {criteria : Criteria} {call : Call} (hcall : call.SearchesFor criteria) {cap : Int64}
    (hcap : 0 < cap) : 0 < call.limitUnder cap := by
  cases hcall with
  | search | searchMembers => exact hcap
  | @searchPage request hrequest =>
    have hlimit := (PageRequest.check_eq_ok_iff.mp hrequest).2
    rw [Int64.lt_iff_toInt_lt] at hcap hlimit ⊢
    rw [limitUnder, limit?, Integer.toInt_min]
    exact Int.lt_min.mpr ⟨hlimit, hcap⟩

end Call

/-! ## What searches do with the decision of the policy -/

/-- A search without a page warns as the policy says and selects once, within the cap. -/
theorem exec_of_capped {α : Type} {config : Config} {criteria : Criteria} {cap : Option Int64}
    (hcap : permission config criteria.filter = .ok cap) {columns : String} (hcolumns : Selects false columns) {source : Sql}
    (hsource : Sql.Unlimited source) (read : Row → Except SqlFault α) (wrap : List α → Answer) (replies : List Reply) :
    let select (cap : Option Int64) := selectCapped columns source (condition criteria.filter) cap
    let run := (wrap <$> (capFor config criteria.filter >>= fun cap => Program.fetchAll read (select cap))).exec replies
    run.events = warnings config criteria.filter ∧ run.selections.length = 1 ∧
      ∀ statement ∈ run.selections, statement.Limited cap := by
  intro select run
  -- the policy sends nothing, so the only statement is the selection
  obtain ⟨hstatements, hevents⟩ := exec_capFor_fetchAll hcap read wrap select replies
  have hselect := limited_selectCapped hcolumns hsource (fits_filter criteria) cap
  have hselections : run.selections = [select cap] := by
    rw [Run.selections, hstatements, List.filter_singleton, hselect.1]
    rfl
  rw [hselections]
  exact ⟨hevents, rfl, List.forall_mem_singleton.mpr hselect.2⟩

/-- What the policy refuses fails with its error, before anything is sent or reported. -/
theorem exec_of_refused {config : Config} {criteria : Criteria} {call : Call} (hcall : call.SearchesFor criteria)
    {e : Error} (hrefused : permission config criteria.filter = .error e)
    (hsilent : warnings config criteria.filter = []) (replies : List Reply) :
    (call.program config).exec replies = ⟨.error e, [], []⟩ := by
  have hpolicy := exec_capFor config criteria.filter replies
  rw [hrefused, hsilent] at hpolicy
  cases hcall with
  | search =>
    rw [Call.program, Program.exec_map, Store.search, Program.exec_bind_error hpolicy]
    rfl
  | searchMembers =>
    rw [Call.program, Program.exec_map, Store.searchMembers, Program.exec_bind_error hpolicy]
    rfl
  | @searchPage request hrequest =>
    -- a request that can be answered leaves the decision to the policy
    have hchecked : ∀ rest : Unit → Program (Page Entry),
        Program.ofExcept (fun fault => .validation (.page fault)) request.check >>= rest = rest () := by
      intro rest
      rw [hrequest]
      rfl
    rw [Call.program, Program.exec_map, Store.searchPage, hchecked, Program.exec_bind_error hpolicy]
    rfl

/-- What the policy permits is searched for with the warnings of the policy, and the selection stays within the cap. -/
theorem exec_of_permitted {config : Config} {criteria : Criteria} {call : Call} (hcall : call.SearchesFor criteria)
    {cap : Option Int64} (hcap : permission config criteria.filter = .ok cap) (replies : List Reply) :
    let run := (call.program config).exec replies
    run.events = warnings config criteria.filter ∧
      run.selections.length = (if call.selects replies then 1 else 0) ∧
      ∀ select ∈ run.selections, select.Limited (call.limitWithin? cap) := by
  intro run
  cases hcall with
  | search =>
    have hlimit : (Call.search criteria).limitWithin? cap = cap := by
      cases cap <;> rfl
    rw [hlimit]
    exact exec_of_capped hcap selects_entryColumns (unlimited_membersWithTeams config) Entry.ofRow .entries replies
  | searchMembers =>
    have hlimit : (Call.searchMembers criteria).limitWithin? cap = cap := by
      cases cap <;> rfl
    have hsource : Sql.Unlimited
        (if criteria.filter.referencesTeam then membersWithTeams config else membersAlone config) := by
      split
      · exact unlimited_membersWithTeams config
      · exact unlimited_membersAlone config
    rw [hlimit]
    exact exec_of_capped hcap selects_foundMemberColumns hsource Member.ofRow .members replies
  | @searchPage request hrequest =>
    have hlimit : (Call.searchPage criteria request).limitWithin? cap = some (capped request cap).limit := by
      cases cap <;> rfl
    have hcount := isCount_selectCount config (fits_filter criteria)
    have hselect := limited_selectPage selects_entryColumns (unlimited_membersWithTeams config) (fits_filter criteria)
      (capped request cap)
    have hmap := Program.exec_map Answer.page (Store.searchPage config criteria request) replies
    rw [exec_searchPage hrequest hcap] at hmap
    rw [hlimit]
    change run = _ at hmap
    rw [hmap, Call.selects]
    -- the count is no selection, and where it fails nothing else is sent
    cases counted replies with
    | error e => simp [Run.selections, hcount, Except.isOk, Except.toBool]
    | ok total => simp [Run.selections, hcount, hselect.1, hselect.2, Except.isOk, Except.toBool]

/-! ## The decision of the policy -/

/-- Criteria that ask for something are permitted without a cap and without a warning. -/
theorem permission_of_asks {criteria : Criteria} {key : Criteria.Key} (h : criteria.Asks key) (config : Config) :
    permission config criteria.filter = .ok none ∧ warnings config criteria.filter = [] := by
  have hfilter : criteria.filter.isAlways = false := by
    rw [← Bool.not_eq_true]
    intro hunfiltered
    exact criteria.isUnfiltered_iff.mp hunfiltered key h
  simp [permission, warnings, hfilter]

theorem isAlways_of_unfiltered {criteria : Criteria} (h : ∀ key, ¬criteria.Asks key) :
    criteria.filter.isAlways = true :=
  criteria.isUnfiltered_iff.mpr h

/-- Criteria that ask for nothing are refused if the policy says so. -/
theorem permission_of_reject {criteria : Criteria} (h : ∀ key, ¬criteria.Asks key) {config : Config}
    (hpolicy : config.unfiltered = .reject) :
    permission config criteria.filter = .error .unfilteredSearch ∧ warnings config criteria.filter = [] := by
  simp [permission, warnings, isAlways_of_unfiltered h, hpolicy]

/-- Criteria that ask for nothing are capped with a warning if the policy says so. -/
theorem permission_of_cap {criteria : Criteria} (h : ∀ key, ¬criteria.Asks key) {config : Config} {cap : Int64}
    (hpolicy : config.unfiltered = .cap cap) :
    permission config criteria.filter = .ok (some cap) ∧ warnings config criteria.filter = [.capped cap] := by
  simp [permission, warnings, isAlways_of_unfiltered h, hpolicy]

/-- Criteria that ask for nothing are permitted with a warning if the policy says so. -/
theorem permission_of_allow {criteria : Criteria} (h : ∀ key, ¬criteria.Asks key) {config : Config}
    (hpolicy : config.unfiltered = .allow) :
    permission config criteria.filter = .ok none ∧ warnings config criteria.filter = [.unfiltered] := by
  simp [permission, warnings, isAlways_of_unfiltered h, hpolicy]

/-- There is no cap if the criteria ask for something, or if the policy allows them to ask for nothing. -/
theorem permission_of_uncapped {criteria : Criteria} {config : Config}
    (h : (∃ key, criteria.Asks key) ∨ config.unfiltered = .allow) : permission config criteria.filter = .ok none := by
  by_cases hasks : ∃ key, criteria.Asks key
  · obtain ⟨key, hkey⟩ := hasks
    exact (permission_of_asks hkey config).1
  · exact (permission_of_allow (not_exists.mp hasks) (h.resolve_left hasks)).1

/-- A search is permitted if the criteria ask for something, or if the policy does not refuse them. -/
theorem permission_of_unrefused {criteria : Criteria} {config : Config}
    (h : (∃ key, criteria.Asks key) ∨ config.unfiltered ≠ .reject) :
    ∃ cap, permission config criteria.filter = .ok cap := by
  rcases h with ⟨key, hkey⟩ | hpolicy
  · exact ⟨none, (permission_of_asks hkey config).1⟩
  · obtain ⟨cap, hcap, -⟩ := exists_permission hpolicy criteria .standard
    exact ⟨cap, hcap⟩

/-- All events about a filter are warnings. -/
theorem filter_warnings (config : Config) (filter : Predicate) :
    (warnings config filter).filter (·.level == .warn) = warnings config filter := by
  unfold warnings
  cases filter.isAlways with
  | false => rfl
  | true => cases config.unfiltered <;> rfl

/-- What a search does on a valid configuration.  If the criteria ask for nothing, the policy may refuse the search
before anything is sent or reported; it may cap it, with one warning and a limit between one and the cap in the text of
the selection; or it may allow it, with one warning.  If the criteria ask for something, there is no warning.  A search
that is neither refused nor capped has the limit of its own request and no other.  A request for a page that cannot be
answered fails before all of this. -/
theorem searches_policy {config : Config} (hconfig : config.check = .ok ()) (criteria : Criteria) :
    (∀ call : Call, call.SearchesFor criteria → ∀ replies,
      let run := (call.program config).exec replies
      ((∀ key, ¬criteria.Asks key) → config.unfiltered = .reject → run = ⟨.error .unfilteredSearch, [], []⟩) ∧
      (∀ cap, (∀ key, ¬criteria.Asks key) → config.unfiltered = .cap cap →
        run.warnings = [.capped cap] ∧ 0 < call.limitUnder cap ∧ call.limitUnder cap ≤ cap ∧
        ∀ select ∈ run.selections, select.Limited (some (call.limitUnder cap))) ∧
      ((∀ key, ¬criteria.Asks key) → config.unfiltered = .allow → run.warnings = [.unfiltered]) ∧
      ((∃ key, criteria.Asks key) → run.warnings = []) ∧
      ((∃ key, criteria.Asks key) ∨ config.unfiltered = .allow →
        ∀ select ∈ run.selections, select.Limited call.limit?) ∧
      ((∃ key, criteria.Asks key) ∨ config.unfiltered ≠ .reject →
        run.selections.length = if call.selects replies then 1 else 0)) ∧
    ∀ request fault, request.check = .error fault → ∀ replies,
      ((Call.searchPage criteria request).program config).exec replies =
        ⟨.error (.validation (.page fault)), [], []⟩ := by
  constructor
  · intro call hcall replies run
    -- all that is reported are the warnings of the policy
    have hwarned : ∀ {cap events}, permission config criteria.filter = .ok cap ∧
        warnings config criteria.filter = events → run.warnings = events := by
      rintro cap _ ⟨hcap, rfl⟩
      rw [Run.warnings, (exec_of_permitted hcall hcap replies).1, filter_warnings]
    refine ⟨?_, ?_, ?_, ?_, ?_, ?_⟩
    · intro hnothing hpolicy
      -- the policy refuses before the store is asked
      obtain ⟨hrefused, hsilent⟩ := permission_of_reject hnothing hpolicy
      exact exec_of_refused hcall hrefused hsilent replies
    · intro cap hnothing hpolicy
      have hcap := permission_of_cap hnothing hpolicy
      have hpositive : 0 < cap := ((Config.check_eq_ok_iff config).mp hconfig).2.2.2 cap hpolicy
      exact ⟨hwarned hcap, Call.limitUnder_pos hcall hpositive, call.limitUnder_le cap,
        (exec_of_permitted hcall hcap.1 replies).2.2⟩
    · intro hnothing hpolicy
      exact hwarned (permission_of_allow hnothing hpolicy)
    · rintro ⟨key, hkey⟩
      exact hwarned (permission_of_asks hkey config)
    · intro huncapped
      exact (exec_of_permitted hcall (permission_of_uncapped huncapped) replies).2.2
    · intro hunrefused
      obtain ⟨cap, hcap⟩ := permission_of_unrefused hunrefused
      exact (exec_of_permitted hcall hcap replies).2.1
  · intro request fault hfault replies
    have hrefused : (searchPage config criteria request).exec replies =
        ⟨.error (.validation (.page fault)), [], []⟩ := by
      apply Program.exec_bind_error
      rw [Program.exec_ofExcept, hfault]
      rfl
    rw [Call.program, Program.exec_map, hrefused]
    rfl

/-- A blank name asks for nothing, so a request for fifty lines gets ten of them under a cap of ten. -/
theorem searches_policy_blank_name :
    let config := { Config.ofUrl "postgres://localhost/roster" with unfiltered := .cap 10 }
    let criteria : Criteria := { Criteria.empty with username := some " " }
    let call : Call := .searchPage criteria ⟨0, 50, []⟩
    config.check = .ok () ∧ call.SearchesFor criteria ∧ (∀ key, ¬criteria.Asks key) ∧
      ∀ replies,
        let run := (call.program config).exec replies
        run.warnings = [.capped 10] ∧ (∀ select ∈ run.selections, select.Limited (some 10)) ∧
          run.selections.length = if (counted replies).isOk then 1 else 0 := by
  intro config criteria call
  have hconfig : config.check = .ok () := by
    refine Config.check_ofUrl _ ?_
    rintro limit ⟨rfl⟩
    decide
  have hcall : call.SearchesFor criteria := .searchPage (by decide)
  have hnothing : ∀ key, ¬criteria.Asks key := (Criteria.isUnfiltered_iff criteria).mp (by decide)
  refine ⟨hconfig, hcall, hnothing, ?_⟩
  intro replies run
  obtain ⟨-, hcapped, -, -, -, hlength⟩ := (searches_policy hconfig criteria).1 call hcall replies
  obtain ⟨hwarnings, -, -, hlimited⟩ := hcapped 10 hnothing rfl
  exact ⟨hwarnings, hlimited, hlength (.inr (by decide))⟩

end Store

end Roster
