import Roster.Proofs.Row
import Roster.Proofs.Store.Guard

/-! # Lists of things

Eight programs of the store return a list.  Each of them ends with a selection, and the list is read off the rows that
this returns: all of them in their order, or, if one of them lacks a value that it needs, none.

* `Program.Reads`: a program whose result is read off the reply to its last statement.
* `Program.Reads.after`: what is sent before that does not matter.
* `Store.Lists`: the programs that return a list, and the place of the selection.
* `Store.lists_all_or_nothing`: a list has one thing for each row, or there is none.
-/

namespace Roster

/-! ## Programs that read a list -/

namespace Program

variable {α β : Type} {read : Row → Except SqlFault β} {place : Nat}

/-- If the program comes to the statement at the place, it ends with the things read off the reply to it. -/
def Reads (p : Program (List β)) (place : Nat) (read : Row → Except SqlFault β) : Prop :=
  ∀ replies, (p.exec replies).statements.length = place + 1 →
    (p.exec replies).result = (answer (replies.drop place)).bind fun outcome => (outcome.rows.mapM read).mapError .sql

theorem reads_fetchAll (read : Row → Except SqlFault β) (statement : Statement) :
    (fetchAll read statement).Reads 0 read := by
  intro replies _
  rw [exec_fetchAll, List.drop_zero]

/-- A program that always sends as many statements puts off the reading by that number. -/
theorem Reads.after {p : Program α} {count : Nat}
    (hcount : ∀ replies, (p.exec replies).statements.length = count) {next : α → Program (List β)}
    (h : ∀ a, (next a).Reads place read) : (p >>= next).Reads (count + place) read := by
  intro replies hsent
  have hlength := hcount replies
  rcases hrun : p.exec replies with ⟨e | a, statements, events⟩
  · -- what has failed by then does not come to the statement
    rw [exec_bind_error hrun] at hsent
    rw [hrun] at hlength
    change statements.length = count at hlength
    change statements.length = count + place + 1 at hsent
    omega
  · -- it sends the statements that come first, and the place counts on from there
    rw [hrun] at hlength
    change statements.length = count at hlength
    rw [exec_bind_ok hrun, hlength] at hsent ⊢
    rw [← List.drop_drop]
    apply h
    rw [List.length_append, hlength] at hsent
    omega

/-- What sends nothing does not put off the reading. -/
theorem Reads.after_silent {p : Program α} (hsilent : ∀ replies, (p.exec replies).statements = [])
    {next : α → Program (List β)} (h : ∀ a, (next a).Reads place read) : (p >>= next).Reads place read := by
  have hafter := Reads.after (fun replies => congrArg List.length (hsilent replies)) h
  rw [List.length_nil, Nat.zero_add] at hafter
  exact hafter

end Program

namespace Store

/-! ## Programs of the store -/

/-- The programs that return a list, with the place of the statement that selects the rows and with what these show.  A
page is selected after its rows have been counted. -/
inductive Lists (config : Config) : {α : Type} → Program (List α) → Nat → Reading α → Prop where
  | teams : Lists config (listTeams config) 0 .team
  | members : Lists config (listMembers config) 0 .member
  | membersNamed (username : String) : Lists config (listMembersNamed config username) 0 .member
  | summaries : Lists config (listSummaries config) 0 .summary
  | teamAgeStats : Lists config (teamAgeStats config) 0 .teamAgeStats
  | search (criteria : Criteria) : Lists config (search config criteria) 0 .entry
  | searchMembers (criteria : Criteria) : Lists config (searchMembers config criteria) 0 .member
  | searchPage (criteria : Criteria) (request : PageRequest) :
      Lists config (Page.content <$> searchPage config criteria request) 1 .entry

section Listing

variable {config : Config} {α : Type} {program : Program (List α)} {place : Nat} {reading : Reading α}

theorem statements_capFor (config : Config) (filter : Predicate) (replies : List Reply) :
    ((capFor config filter).exec replies).statements = [] := by
  rw [exec_capFor]

theorem content_searchPage (config : Config) (criteria : Criteria) (request : PageRequest) :
    Page.content <$> searchPage config criteria request = (do
      Program.ofExcept (fun fault => .validation (.page fault)) request.check
      let cap ← capFor config criteria.filter
      let _ ← Program.fetchValue .count (selectCount (membersWithTeams config) (condition criteria.filter))
      Program.fetchAll Entry.ofRow
        (selectPage entryColumns (membersWithTeams config) (condition criteria.filter) (capped request cap))) := by
  unfold searchPage
  simp only [map_bind, map_pure, Page.ofRequest, bind_pure]

/-- Each of them reads its list off the rows that it selects. -/
theorem Lists.reads (h : Lists config program place reading) : program.Reads place reading.read := by
  cases h with
  | teams | members | membersNamed | summaries | teamAgeStats => exact Program.reads_fetchAll _ _
  | search criteria =>
    exact .after_silent (statements_capFor config criteria.filter) fun _ => Program.reads_fetchAll _ _
  | searchMembers criteria =>
    exact .after_silent (statements_capFor config criteria.filter) fun _ => Program.reads_fetchAll _ _
  -- the search for a page comes to its rows behind the count, and before that nothing is sent
  | searchPage criteria request =>
    rw [content_searchPage]
    refine .after_silent (fun replies => ?_) fun _ => ?_
    · rw [Program.exec_ofExcept]
    · refine .after_silent (statements_capFor config criteria.filter) fun _ => ?_
      refine .after (fun replies => ?_) fun _ => Program.reads_fetchAll _ _
      rw [Program.exec_fetchValue]
      rfl

/-- A list is returned exactly if no row lacks a value that it needs, and then each row, in the order of the rows, shows
the thing at its place.  Otherwise there is no list, and the error names the first null column of the first such row. -/
theorem lists_all_or_nothing (hlists : Lists config program place reading) {replies : List Reply} {rows : List Row}
    {affected : Nat} (hsent : (program.exec replies).statements.length = place + 1)
    (hreply : replyAt replies place = .outcome ⟨rows, affected⟩) :
    let result := (program.exec replies).result
    ((∃ things, result = .ok things) ↔ ∀ row ∈ rows, ∀ need ∈ reading.needs, need.isMet row = true) ∧
    (∀ things, result = .ok things → List.Forall₂ reading.Shows rows things) ∧
    ∀ e, result = .error e → ∃ column, reading.firstNull? rows = some column ∧ e = .sql (.nullColumn column) := by
  intro result
  -- what has been sent ends with the selection, so the reply to that is the one that is read
  have hresult : result = (rows.mapM reading.read).mapError .sql := by
    have hread := hlists.reads replies hsent
    rw [answer_eq, replyAt_drop, hreply] at hread
    exact hread
  rw [← reading.firstNull?_eq_none_iff]
  -- either no row has a null that it must not have, or the first such one decides
  cases hnull : reading.firstNull? rows with
  | none =>
    rcases reading.mapM_ok hnull with ⟨things, hall, hshows⟩
    rw [hall] at hresult
    rw [hresult]
    refine ⟨⟨fun _ => rfl, fun _ => ⟨things, rfl⟩⟩, ?_, fun e he => nomatch he⟩
    intro things' hthings
    cases hthings
    exact hshows
  | some column =>
    rw [reading.mapM_error hnull] at hresult
    rw [hresult]
    refine ⟨⟨fun ⟨_, hok⟩ => (nomatch hok), fun h => (nomatch h)⟩, fun _ hok => (nomatch hok), ?_⟩
    intro e he
    cases he
    exact ⟨column, rfl, rfl⟩

end Listing

/-- Of two rows the second has no name and no age: no member is listed, and the name is what is missing.  In a page on
which all names and ages are there, nothing is missing. -/
theorem lists_all_or_nothing_nameless :
    let config := Config.ofUrl "postgres://localhost/roster"
    let adults : Criteria := ⟨none, none, some 18, none⟩
    let row (id : Int64) (username : Option String) (age : Option Int32) : Row :=
      ⟨some id, username, age, none, none, none, some 2, none, none, none, none⟩
    let nameless : List Row := [row 1 (some "Ada") (some 36), row 2 none none]
    let named : List Row := [row 1 (some "Ada") (some 36), row 2 (some "Alan") (some 41)]
    let members := (listMembers config).exec [.outcome ⟨nameless, 0⟩]
    let page := (Page.content <$> searchPage config adults .standard).exec [.outcome ⟨named, 0⟩, .outcome ⟨named, 0⟩]
    members.result = .error (.sql (.nullColumn "username")) ∧
    ∃ entries, page.result = .ok entries ∧ List.Forall₂ Entry.InRow named entries := by
  intro config adults row nameless named members page
  have hmembers : replyAt [.outcome ⟨nameless, 0⟩] 0 = .outcome ⟨nameless, 0⟩ := rfl
  have hpage : replyAt [.outcome ⟨named, 0⟩, .outcome ⟨named, 0⟩] 1 = .outcome ⟨named, 0⟩ := rfl
  have hsent : page.statements.length = 2 := by rfl
  rcases lists_all_or_nothing (.members : Lists config _ 0 _) rfl hmembers with ⟨hlisted, -, herror⟩
  rcases lists_all_or_nothing (.searchPage adults .standard) hsent hpage with ⟨hfound, hshown, -⟩
  constructor
  · cases hresult : members.result with
    | ok things =>
      have hall := hlisted.mp ⟨things, hresult⟩
      exact absurd hall (by decide)
    | error e =>
      rcases herror e hresult with ⟨column, hcolumn, he⟩
      cases hcolumn
      rw [he]
      rfl
  · rcases hfound.mpr (by decide) with ⟨entries, hentries⟩
    exact ⟨entries, hentries, hshown entries hentries⟩

end Store

end Roster
