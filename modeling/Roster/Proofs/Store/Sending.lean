import Roster.Proofs.Store.Sequence
import Roster.Store.Call

/-! # What calls send

For each call of the store, the statements that it may send, and under which condition.  What holds of all of them holds
of every statement of every run.

* `Call.MaySend`: the statements of a call.
* `orderly_program`: the program of a call sends nothing else, and it stops at the first error.
* `orderly_setUp`: so does opening a store, which sends the statements of the schema.
-/

namespace Roster.Store

/-- The tables in which a search for members looks. -/
def memberSource (config : Config) (filter : Predicate) : Sql :=
  if filter.referencesTeam then membersWithTeams config else membersAlone config

/-- The statements that a call may send. -/
inductive Call.MaySend (config : Config) : Call → Statement → Prop where
  | addTeam (name : String) : MaySend config (.saveTeam name) (insertTeam config name)
  | findTeam (id : Int64) : MaySend config (.findTeam id) (selectTeam config id)
  | listTeams : MaySend config .listTeams (selectTeams config)
  | askForTeamOf (member : NewMember) {id : Int64} (hteam : member.teamId = some id) :
      MaySend config (.saveMember member) (selectTeam config id)
  | addMember (member : NewMember) : MaySend config (.saveMember member) (insertMemberForId config member)
  | findMember (id : Int64) : MaySend config (.findMember id) (selectMember config id)
  | listMembers : MaySend config .listMembers (selectMembers config)
  | listMembersNamed (username : String) :
      MaySend config (.listMembersNamed username) (selectMembersNamed config username)
  | askForTeam (memberId : Int64) {teamId : Option Int64} {id : Int64} (hteam : teamId = some id) :
      MaySend config (.changeTeam memberId teamId) (selectTeam config id)
  | changeTeam (memberId : Int64) (teamId : Option Int64) :
      MaySend config (.changeTeam memberId teamId) (updateTeam config memberId teamId)
  | removeMember (memberId : Int64) : MaySend config (.removeMember memberId) (deleteMember config memberId)
  | listSummaries : MaySend config .listSummaries (selectSummaries config)
  | ageStats : MaySend config .ageStats (selectAgeStats config)
  | teamAgeStats : MaySend config .teamAgeStats (selectTeamAgeStats config)
  | search {criteria : Criteria} {cap : Option Int64} (hcap : permission config criteria.filter = .ok cap) :
      MaySend config (.search criteria)
        (selectCapped entryColumns (membersWithTeams config) (condition criteria.filter) cap)
  | searchMembers {criteria : Criteria} {cap : Option Int64} (hcap : permission config criteria.filter = .ok cap) :
      MaySend config (.searchMembers criteria)
        (selectCapped foundMemberColumns (memberSource config criteria.filter) (condition criteria.filter) cap)
  | countPage (criteria : Criteria) (request : PageRequest) :
      MaySend config (.searchPage criteria request)
        (selectCount (membersWithTeams config) (condition criteria.filter))
  | searchPage {criteria : Criteria} (request : PageRequest) {cap : Option Int64}
      (hcap : permission config criteria.filter = .ok cap) :
      MaySend config (.searchPage criteria request)
        (selectPage entryColumns (membersWithTeams config) (condition criteria.filter) (capped request cap))
  | addSampleTeam (count : Int32) (name : String) : MaySend config (.seed count) (insertTeam config name)
  | addSampleMember (count : Int32) (member : NewMember) : MaySend config (.seed count) (insertMember config member)
  | dropTable {sql : Sql} (h : sql ∈ Sql.dropSchema config) : MaySend config .dropTables ⟨sql, []⟩

open Program (Orderly)

variable {kind : Statement → Prop} (config : Config)

/-! ## Teams and members -/

theorem orderly_saveTeam {name : String} (h : kind (insertTeam config name)) :
    Orderly kind (saveTeam config name) := by
  unfold saveTeam
  split
  · exact .fail _
  · exact (Program.orderly_fetchValue h .teamId).map _

/-- A team is asked for, if there is one to ask for. -/
theorem orderly_requireTeam {teamId : Option Int64} (h : ∀ id, teamId = some id → kind (selectTeam config id)) :
    Orderly kind (requireTeam config teamId) := by
  cases teamId with
  | none => exact .done ()
  | some id =>
    refine (Program.orderly_fetchFirst? (h id rfl) Team.ofRow).bind fun team => ?_
    cases team with
    | none => exact .fail _
    | some team => exact .done ()

theorem orderly_saveMember {member : NewMember} (hteam : ∀ id, member.teamId = some id → kind (selectTeam config id))
    (hmember : kind (insertMemberForId config member)) : Orderly kind (saveMember config member) := by
  refine (Program.orderly_ofExcept _ _).bind fun _ => ?_
  refine (orderly_requireTeam config hteam).bind fun _ => ?_
  exact (Program.orderly_fetchValue hmember .memberId).map _

theorem orderly_executeOn (memberId : Int64) {statement : Statement} (h : kind statement) :
    Orderly kind (executeOn memberId statement) := by
  refine (Program.orderly_execute h).bind fun affected => ?_
  split
  · exact .fail _
  · exact .done ()

theorem orderly_changeTeam {memberId : Int64} {teamId : Option Int64}
    (hteam : ∀ id, teamId = some id → kind (selectTeam config id)) (hmember : kind (updateTeam config memberId teamId)) :
    Orderly kind (changeTeam config memberId teamId) :=
  (orderly_requireTeam config hteam).bind fun _ => orderly_executeOn memberId hmember

/-- However many sample members there are to add, each of them is one statement. -/
theorem orderly_seedMembers (first second : Team) (h : ∀ member, kind (insertMember config member))
    (number count : Nat) : Orderly kind (seedMembers config first second number count) := by
  rw [seedMembers_eq]
  apply Program.orderly_executeEach
  rw [List.forall_mem_map]
  intro i _
  exact h _

theorem orderly_seed (count : Int32) (hteam : ∀ name, kind (insertTeam config name))
    (hmember : ∀ member, kind (insertMember config member)) : Orderly kind (seed config count) := by
  refine (orderly_saveTeam config (hteam "teamA")).bind fun first => ?_
  refine (orderly_saveTeam config (hteam "teamB")).bind fun second => ?_
  refine (orderly_seedMembers config first second hmember _ _).bind fun _ => ?_
  exact .report _ (.done _)

/-! ## Searches -/

/-- The policy for unfiltered searches sends nothing, and a search goes on with the cap that it permits. -/
theorem orderly_capFor_bind {α : Type} {filter : Predicate} {next : Option Int64 → Program α}
    (h : ∀ cap, permission config filter = .ok cap → Orderly kind (next cap)) :
    Orderly kind (capFor config filter >>= next) := by
  unfold capFor permission at *
  -- the policy is asked only where the filter matches everything
  cases hfilter : filter.isAlways with
  | false =>
    rw [hfilter] at h
    exact h none rfl
  | true =>
    rw [hfilter] at h
    cases hpolicy : config.unfiltered with
    | allow =>
      rw [hpolicy] at h
      exact .report _ (h none rfl)
    | cap limit =>
      rw [hpolicy] at h
      exact .report _ (h (some limit) rfl)
    | reject => exact .fail _

theorem orderly_searchPage {criteria : Criteria} {request : PageRequest}
    (hcount : kind (selectCount (membersWithTeams config) (condition criteria.filter)))
    (hselect : ∀ cap, permission config criteria.filter = .ok cap →
      kind (selectPage entryColumns (membersWithTeams config) (condition criteria.filter) (capped request cap))) :
    Orderly kind (searchPage config criteria request) := by
  refine (Program.orderly_ofExcept _ _).bind fun _ => ?_
  refine orderly_capFor_bind config fun cap hcap => ?_
  refine (Program.orderly_fetchValue hcount .count).bind fun _ => ?_
  exact (Program.orderly_fetchAll (hselect cap hcap) Entry.ofRow).map _

/-! ## Statements without slots -/

theorem orderly_executeAll {sqls : List Sql} (h : ∀ sql ∈ sqls, kind ⟨sql, []⟩) : Orderly kind (executeAll sqls) := by
  rw [executeAll_eq]
  apply Program.orderly_executeEach
  rw [List.forall_mem_map]
  exact h

/-! ## Calls -/

/-- The program of a call sends the statements of the call only, and it stops at the first error. -/
theorem orderly_program (call : Call) : Orderly (call.MaySend config) (call.program config) := by
  cases call with
  | saveTeam name => exact (orderly_saveTeam config (.addTeam name)).map _
  | findTeam id => exact (Program.orderly_fetchFirst? (.findTeam id) Team.ofRow).map _
  | listTeams => exact (Program.orderly_fetchAll .listTeams Team.ofRow).map _
  | saveMember member =>
    exact (orderly_saveMember config (fun _ hteam => .askForTeamOf member hteam) (.addMember member)).map _
  | findMember id => exact (Program.orderly_fetchFirst? (.findMember id) Member.ofRow).map _
  | listMembers => exact (Program.orderly_fetchAll .listMembers Member.ofRow).map _
  | listMembersNamed username => exact (Program.orderly_fetchAll (.listMembersNamed username) Member.ofRow).map _
  | changeTeam memberId teamId =>
    exact (orderly_changeTeam config (fun _ hteam => .askForTeam memberId hteam) (.changeTeam memberId teamId)).map _
  | removeMember memberId => exact (orderly_executeOn memberId (.removeMember memberId)).map _
  | listSummaries => exact (Program.orderly_fetchAll .listSummaries Summary.ofRow).map _
  | ageStats => exact (Program.orderly_fetchFirst .ageStats AgeStats.ofRow).map _
  | teamAgeStats => exact (Program.orderly_fetchAll .teamAgeStats TeamAgeStats.ofRow).map _
  | search criteria =>
    have hsearch : Orderly (Call.MaySend config (.search criteria)) (search config criteria) :=
      orderly_capFor_bind config fun _ hcap => Program.orderly_fetchAll (.search hcap) Entry.ofRow
    exact hsearch.map _
  | searchMembers criteria =>
    have hsearch : Orderly (Call.MaySend config (.searchMembers criteria)) (searchMembers config criteria) :=
      orderly_capFor_bind config fun _ hcap => Program.orderly_fetchAll (.searchMembers hcap) Member.ofRow
    exact hsearch.map _
  | searchPage criteria request =>
    exact (orderly_searchPage config (.countPage criteria request) fun _ hcap => .searchPage request hcap).map _
  | seed count => exact (orderly_seed config count (.addSampleTeam count) (.addSampleMember count)).map _
  | dropTables => exact (orderly_executeAll fun _ hsql => .dropTable hsql).map _
  | tables => exact .done _

/-- Opening a store sends statements of the schema only, and it stops at the first error. -/
theorem orderly_setUp (link : Link) :
    Orderly (fun statement => ∃ sql ∈ Sql.schema config, statement = ⟨sql, []⟩) (setUp config link) := by
  refine (Program.orderly_ofExcept _ _).bind fun _ => ?_
  have hconnect : ∀ {kind : Statement → Prop}, Orderly kind (connect link) := by
    intro kind
    rcases link with (_ | message) | (_ | message)
    · exact .done ()
    · exact .fail _
    · exact .done ()
    · exact .fail _
  exact hconnect.bind fun _ => orderly_executeAll fun sql hsql => ⟨sql, hsql, rfl⟩

/-- Every statement of a run is one that the call may send. -/
theorem maySend_of_mem_statements {call : Call} {replies : List Reply} {statement : Statement}
    (h : statement ∈ ((call.program config).exec replies).statements) : call.MaySend config statement :=
  (orderly_program config call).forall_mem_statements replies statement h

end Roster.Store
