import Roster.Proofs.Sql.Outline
import Roster.Proofs.Store.Alike
import Roster.Proofs.Text.Blank
import Roster.Store.Call

/-! # No value reaches the text of a statement

What a caller passes to the store, be it a name, an age, an id or a stretch of a result, is bound to slots.  Two calls
that differ in such values alone send the same texts, and nothing that the database replies sets them apart.

* `Call.Alike`: calls of one kind that agree on what is present, but not on the values.
* `alike_program`: alike calls have alike programs.
* `run_noninterference`: their runs differ in bound values, results and the wording of errors only.
-/

namespace Roster

def Statement.text (statement : Statement) : String :=
  Sql.render statement.sql

namespace Store

/-- The calls are of one kind and agree on which parts are there and whether they pass the checks. -/
inductive Call.Alike : Call → Call → Prop where
  | saveTeam {name other : String} (h : Text.isBlank name = Text.isBlank other) :
      Alike (.saveTeam name) (.saveTeam other)
  | findTeam (id other : Int64) : Alike (.findTeam id) (.findTeam other)
  | saveMember {member other : NewMember} (hteam : member.teamId.isSome = other.teamId.isSome)
      (hcheck : (checkMember member).isOk = (checkMember other).isOk) : Alike (.saveMember member) (.saveMember other)
  | findMember (id other : Int64) : Alike (.findMember id) (.findMember other)
  | listMembersNamed (username other : String) : Alike (.listMembersNamed username) (.listMembersNamed other)
  | changeTeam (memberId otherId : Int64) {teamId other : Option Int64} (h : teamId.isSome = other.isSome) :
      Alike (.changeTeam memberId teamId) (.changeTeam otherId other)
  | removeMember (memberId other : Int64) : Alike (.removeMember memberId) (.removeMember other)
  | search {criteria other : Criteria} (h : ∀ key, criteria.Asks key ↔ other.Asks key) :
      Alike (.search criteria) (.search other)
  | searchMembers {criteria other : Criteria} (h : ∀ key, criteria.Asks key ↔ other.Asks key) :
      Alike (.searchMembers criteria) (.searchMembers other)
  | searchPage {criteria other : Criteria} {request otherRequest : PageRequest}
      (h : ∀ key, criteria.Asks key ↔ other.Asks key) (hsort : request.sort = otherRequest.sort)
      (hcheck : request.check.isOk = otherRequest.check.isOk) :
      Alike (.searchPage criteria request) (.searchPage other otherRequest)

/-! ## Teams and members -/

section Membership

variable (config : Config)

theorem alike_saveTeam {name other : String} (h : Text.isBlank name = Text.isBlank other) :
    Program.Alike (fun _ _ => True) (saveTeam config name) (saveTeam config other) := by
  unfold saveTeam
  -- both names are refused, or neither is
  rw [Text.isEmpty_trimChars, Text.isEmpty_trimChars, h]
  split
  · exact .fail (.refl _)
  · have hid : Program.Alike Eq (Program.fetchValue .teamId (insertTeam config name))
        (Program.fetchValue .teamId (insertTeam config other)) := Program.alike_fetchValue .teamId rfl
    refine hid.bind ?_
    intro _ _ _
    exact .done trivial

theorem alike_findTeam (id other : Int64) : Program.Alike Eq (findTeam config id) (findTeam config other) :=
  Program.alike_fetchFirst? Team.ofRow rfl

/-- Whether a team exists is asked with one text, if there is a team to ask for. -/
theorem alike_requireTeam {teamId other : Option Int64} (h : teamId.isSome = other.isSome) :
    Program.Alike Eq (requireTeam config teamId) (requireTeam config other) := by
  cases teamId with
  | none =>
    cases other with
    | none => exact .done rfl
    | some id => cases h
  | some id =>
    cases other with
    | none => cases h
    | some otherId =>
      -- on the same reply, either both teams exist or neither does, and the errors differ in the id only
      refine (alike_findTeam config id otherId).bind ?_
      rintro team _ rfl
      cases team with
      | none => exact .fail (.teamNotFound _ _)
      | some team => exact .done rfl

theorem alike_saveMember {member other : NewMember} (hteam : member.teamId.isSome = other.teamId.isSome)
    (hcheck : (checkMember member).isOk = (checkMember other).isOk) :
    Program.Alike (fun _ _ => True) (saveMember config member) (saveMember config other) := by
  -- both members pass the check or neither does, before anything is sent
  refine (Program.alike_ofExcept Error.SameKind.validation hcheck).bind ?_
  intro _ _ _
  refine (alike_requireTeam config hteam).bind ?_
  intro _ _ _
  have hid : Program.Alike Eq (Program.fetchValue .memberId (insertMemberForId config member))
      (Program.fetchValue .memberId (insertMemberForId config other)) := Program.alike_fetchValue .memberId rfl
  refine hid.bind ?_
  intro _ _ _
  exact .done trivial

theorem alike_findMember (id other : Int64) : Program.Alike Eq (findMember config id) (findMember config other) :=
  Program.alike_fetchFirst? Member.ofRow rfl

theorem alike_listMembersNamed (username other : String) :
    Program.Alike Eq (listMembersNamed config username) (listMembersNamed config other) :=
  Program.alike_fetchAll Member.ofRow rfl

theorem alike_executeOn (memberId other : Int64) {s t : Statement} (h : s.shape = t.shape) :
    Program.Alike Eq (executeOn memberId s) (executeOn other t) := by
  refine (Program.alike_execute h).bind ?_
  rintro affected _ rfl
  split
  · exact .fail (.memberNotFound _ _)
  · exact .done rfl

theorem alike_changeTeam (memberId otherId : Int64) {teamId other : Option Int64} (h : teamId.isSome = other.isSome) :
    Program.Alike Eq (changeTeam config memberId teamId) (changeTeam config otherId other) := by
  refine (alike_requireTeam config h).bind ?_
  intro _ _ _
  exact alike_executeOn memberId otherId rfl

theorem alike_removeMember (memberId other : Int64) :
    Program.Alike Eq (removeMember config memberId) (removeMember config other) :=
  alike_executeOn memberId other rfl

end Membership

/-! ## Searches -/

/-- Selections under conditions with the same text have the same text themselves. -/
theorem shape_selectCapped (columns : String) (source : Sql) {c d : Sql.Clause} (h : c.shape = d.shape)
    (cap : Option Int64) : (selectCapped columns source c cap).shape = (selectCapped columns source d cap).shape := by
  obtain ⟨hsql, hcount⟩ := Prod.mk.inj h
  cases cap <;> simp [Statement.shape, selectCapped, selectWhere, bound, Sql.Clause.next, hsql, hcount]

theorem shape_selectCount (source : Sql) {c d : Sql.Clause} (h : c.shape = d.shape) :
    (selectCount source c).shape = (selectCount source d).shape := by
  obtain ⟨hsql, hcount⟩ := Prod.mk.inj h
  simp [Statement.shape, selectCount, selectWhere, bound, hsql, hcount]

theorem shape_selectPage (columns : String) (source : Sql) {c d : Sql.Clause} (h : c.shape = d.shape)
    {request other : PageRequest} (hsort : request.sort = other.sort) :
    (selectPage columns source c request).shape = (selectPage columns source d other).shape := by
  obtain ⟨hsql, hcount⟩ := Prod.mk.inj h
  simp [Statement.shape, selectPage, selectWhere, bound, Sql.Clause.next, hsql, hcount, hsort]

section Search

variable {criteria other : Criteria}

/-- Conditions of criteria that ask for the same parts differ in values only. -/
theorem shape_condition (h : ∀ key, criteria.Asks key ↔ other.Asks key) :
    (condition criteria.filter).shape = (condition other.filter).shape := by
  unfold condition
  rw [← Sql.shape_clauseFrom_outline, Criteria.outline_filter_congr h, Sql.shape_clauseFrom_outline]

theorem isAlways_filter_congr (h : ∀ key, criteria.Asks key ↔ other.Asks key) :
    criteria.filter.isAlways = other.filter.isAlways := by
  rw [← Predicate.isAlways_outline, Criteria.outline_filter_congr h, Predicate.isAlways_outline]

theorem referencesTeam_filter_congr (h : ∀ key, criteria.Asks key ↔ other.Asks key) :
    criteria.filter.referencesTeam = other.filter.referencesTeam := by
  rw [← Predicate.referencesTeam_outline, Criteria.outline_filter_congr h, Predicate.referencesTeam_outline]

/-- The policy for unfiltered searches decides alike. -/
theorem alike_capFor (config : Config) (h : ∀ key, criteria.Asks key ↔ other.Asks key) :
    Program.Alike Eq (capFor config criteria.filter) (capFor config other.filter) := by
  unfold capFor
  rw [isAlways_filter_congr h]
  exact .refl (fun _ => rfl) _

theorem alike_search (config : Config) (h : ∀ key, criteria.Asks key ↔ other.Asks key) :
    Program.Alike Eq (search config criteria) (search config other) := by
  refine (alike_capFor config h).bind ?_
  rintro cap _ rfl
  exact Program.alike_fetchAll Entry.ofRow (shape_selectCapped _ _ (shape_condition h) cap)

theorem alike_searchMembers (config : Config) (h : ∀ key, criteria.Asks key ↔ other.Asks key) :
    Program.Alike Eq (searchMembers config criteria) (searchMembers config other) := by
  refine (alike_capFor config h).bind ?_
  rintro cap _ rfl
  rw [referencesTeam_filter_congr h]
  exact Program.alike_fetchAll Member.ofRow (shape_selectCapped _ _ (shape_condition h) cap)

theorem sort_capped (request : PageRequest) (cap : Option Int64) : (capped request cap).sort = request.sort := by
  cases cap <;> rfl

theorem alike_searchPage (config : Config) {request otherRequest : PageRequest}
    (h : ∀ key, criteria.Asks key ↔ other.Asks key) (hsort : request.sort = otherRequest.sort)
    (hcheck : request.check.isOk = otherRequest.check.isOk) :
    Program.Alike (fun _ _ => True) (searchPage config criteria request) (searchPage config other otherRequest) := by
  -- every step is alike in both calls: the check, the policy, the count and the selection
  refine (Program.alike_ofExcept (fun _ _ => .validation _ _) hcheck).bind ?_
  intro _ _ _
  refine (alike_capFor config h).bind ?_
  rintro cap _ rfl
  refine (Program.alike_fetchValue .count (shape_selectCount _ (shape_condition h))).bind ?_
  intro _ _ _
  -- the offset and the limit may differ, and the cap changes neither ordering
  have hcapped : (capped request cap).sort = (capped otherRequest cap).sort := by
    rw [sort_capped, sort_capped, hsort]
  refine (Program.alike_fetchAll Entry.ofRow (shape_selectPage _ _ (shape_condition h) hcapped)).bind ?_
  intro _ _ _
  exact .done trivial

end Search

/-! ## Calls -/

/-- Alike calls have alike programs. -/
theorem alike_program (config : Config) {call other : Call} (h : call.Alike other) :
    Program.Alike (fun _ _ => True) (call.program config) (other.program config) := by
  cases h with
  | saveTeam h => exact (alike_saveTeam config h).map _ _
  | findTeam id other => exact (alike_findTeam config id other).map _ _
  | saveMember hteam hcheck => exact (alike_saveMember config hteam hcheck).map _ _
  | findMember id other => exact (alike_findMember config id other).map _ _
  | listMembersNamed username other => exact (alike_listMembersNamed config username other).map _ _
  | changeTeam memberId otherId h => exact (alike_changeTeam config memberId otherId h).map _ _
  | removeMember memberId other => exact (alike_removeMember config memberId other).map _ _
  | search h => exact (alike_search config h).map _ _
  | searchMembers h => exact (alike_searchMembers config h).map _ _
  | searchPage h hsort hcheck => exact (alike_searchPage config h hsort hcheck).map _ _

/-- Two calls that differ in values alone send the same texts with as many values each, and report the same events, on
the same replies; and both of them succeed, or both fail with errors of one kind. -/
theorem run_noninterference (config : Config) {call other : Call} (h : call.Alike other) (replies : List Reply) :
    let run := (call.program config).exec replies
    let otherRun := (other.program config).exec replies
    run.statements.map Statement.text = otherRun.statements.map Statement.text ∧
      run.statements.map (·.params.length) = otherRun.statements.map (·.params.length) ∧
      run.events = otherRun.events ∧
      SameOutcome (fun _ _ => True) run.result otherRun.result := by
  intro run otherRun
  obtain ⟨hstatements, hevents, hresult⟩ := (alike_program config h).exec replies
  -- the shape of a statement is its text and the number of its values
  have htexts := congrArg (List.map fun shape : Sql × Nat => Sql.render shape.1) hstatements
  have hcounts := congrArg (List.map Prod.snd) hstatements
  rw [List.map_map, List.map_map] at htexts hcounts
  exact ⟨htexts, hcounts, hevents, hresult⟩

/-- A name that is made to look like a statement stays beside the text, just like any other name. -/
theorem run_noninterference_name :
    let config := Config.ofUrl "postgres://localhost/roster"
    let call : Call := .searchPage { Criteria.empty with username := some "lee", minAge := some 30 } ⟨0, 20, []⟩
    let other : Call := .searchPage { Criteria.empty with username := some "'; DROP TABLE members", minAge := some 3 }
      ⟨40, 5, []⟩
    let row : Row := ⟨none, none, none, none, none, none, some 9, none, none, none, none⟩
    let replies : List Reply := [.outcome ⟨[row], 0⟩, .outcome .empty]
    let otherRun := (other.program config).exec replies
    call.Alike other ∧
      otherRun.statements.map Statement.text =
        ["SELECT COUNT(*) FROM \"members\" m LEFT JOIN \"teams\" t ON m.team_id = t.team_id " ++
            "WHERE (m.\"username\" = $1) AND (m.\"age\" >= $2)",
          "SELECT m.member_id, m.username, m.age, t.team_id AS team_id, t.name AS team_name " ++
            "FROM \"members\" m LEFT JOIN \"teams\" t ON m.team_id = t.team_id " ++
            "WHERE (m.\"username\" = $1) AND (m.\"age\" >= $2) ORDER BY m.\"member_id\" ASC LIMIT $3 OFFSET $4"] ∧
      otherRun.statements.map Statement.params =
        [[text "'; DROP TABLE members", int 3], [text "'; DROP TABLE members", int 3, int 5, int 40]] := by
  intro config call other row replies otherRun
  have halike : call.Alike other := by
    refine .searchPage ?_ rfl rfl
    -- both names have a character that is not blank
    intro key
    cases key with
    | username => exact iff_of_true ⟨"lee", rfl, 'l', by simp, rfl⟩ ⟨_, rfl, ';', by simp, rfl⟩
    | minAge => exact iff_of_true ⟨30, rfl⟩ ⟨3, rfl⟩
    | teamName | maxAge => exact Iff.rfl
  obtain ⟨htexts, -⟩ := run_noninterference config halike replies
  exact ⟨halike, htexts.symm.trans (by decide +kernel), by decide +kernel⟩

end Store

end Roster
