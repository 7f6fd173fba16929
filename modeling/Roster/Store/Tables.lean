import Roster.Config
import Roster.Member
import Roster.Page
import Roster.Sql.Clause

/-! # Statements of the store

The texts that the store sends for its tables, with the values for their slots.
-/

namespace Roster.Store

def int (n : Int64) : Option Value :=
  some (.int n)

def text (s : String) : Option Value :=
  some (.text s)

/-! ## Tables to select from -/

def memberColumns : String :=
  "member_id, username, age, team_id"

/-- The members table under its letter. -/
def membersAlone (config : Config) : Sql :=
  [.quoted config.membersTable, .text " m"]

/-- The members, each with the team, under their letters. -/
def membersWithTeams (config : Config) : Sql :=
  membersAlone config ++
    [.text " LEFT JOIN ", .quoted config.teamsTable, .text " t ON m.team_id = t.team_id"]

/-! ## Teams -/

/-- Adds a team and returns its id. -/
def insertTeam (config : Config) (name : String) : Statement :=
  ⟨[.text "INSERT INTO ", .quoted config.teamsTable, .text " (name) VALUES (", .slot 1,
    .text ") RETURNING team_id"], [text name]⟩

def selectTeam (config : Config) (id : Int64) : Statement :=
  ⟨[.text "SELECT team_id, name FROM ", .quoted config.teamsTable, .text " WHERE team_id = ", .slot 1], [int id]⟩

def selectTeams (config : Config) : Statement :=
  ⟨[.text "SELECT team_id, name FROM ", .quoted config.teamsTable, .text " ORDER BY team_id"], []⟩

/-! ## Members -/

def insertMember (config : Config) (member : NewMember) : Statement :=
  ⟨[.text "INSERT INTO ", .quoted config.membersTable, .text " (username, age, team_id) VALUES (", .slot 1,
    .text ", ", .slot 2, .text ", ", .slot 3, .text ")"],
    [text member.username, some (.ofInt32 member.age), member.teamId.map .int]⟩

def insertMemberForId (config : Config) (member : NewMember) : Statement :=
  let statement := insertMember config member
  { statement with sql := statement.sql ++ [.text " RETURNING member_id"] }

def selectMember (config : Config) (id : Int64) : Statement :=
  ⟨[.text s!"SELECT {memberColumns} FROM ", .quoted config.membersTable, .text " WHERE member_id = ", .slot 1],
    [int id]⟩

def selectMembers (config : Config) : Statement :=
  ⟨[.text s!"SELECT {memberColumns} FROM ", .quoted config.membersTable, .text " ORDER BY member_id"], []⟩

def selectMembersNamed (config : Config) (username : String) : Statement :=
  ⟨[.text s!"SELECT {memberColumns} FROM ", .quoted config.membersTable, .text " WHERE username = ", .slot 1,
    .text " ORDER BY member_id"], [text username]⟩

def updateTeam (config : Config) (memberId : Int64) (teamId : Option Int64) : Statement :=
  ⟨[.text "UPDATE ", .quoted config.membersTable, .text " SET team_id = ", .slot 2, .text " WHERE member_id = ",
    .slot 1], [int memberId, teamId.map .int]⟩

def deleteMember (config : Config) (memberId : Int64) : Statement :=
  ⟨[.text "DELETE FROM ", .quoted config.membersTable, .text " WHERE member_id = ", .slot 1], [int memberId]⟩

/-! ## Reports -/

def selectSummaries (config : Config) : Statement :=
  ⟨[.text "SELECT username, age FROM ", .quoted config.membersTable, .text " ORDER BY member_id"], []⟩

def selectAgeStats (config : Config) : Statement :=
  ⟨.text ("SELECT COUNT(*) AS count, COALESCE(SUM(m.age), 0)::BIGINT AS sum_age, " ++
      "AVG(m.age)::FLOAT8 AS avg_age, MAX(m.age) AS max_age, MIN(m.age) AS min_age FROM ") ::
    membersAlone config, []⟩

def selectTeamAgeStats (config : Config) : Statement :=
  ⟨.text ("SELECT t.name AS team_name, COUNT(*) AS count, SUM(m.age)::BIGINT AS sum_age, " ++
      "AVG(m.age)::FLOAT8 AS avg_age, MAX(m.age) AS max_age, MIN(m.age) AS min_age FROM ") ::
    membersWithTeams config ++ [.text " WHERE t.team_id IS NOT NULL GROUP BY t.name ORDER BY t.name"], []⟩

/-! ## Searches -/

/-- A selection of columns under a condition. -/
def selectWhere (columns : String) (source : Sql) (condition : Sql.Clause) : Sql :=
  [.text s!"SELECT {columns} FROM "] ++ source ++ [.text " WHERE "] ++ condition.sql

/-- A selection in the order of sort terms. -/
def orderedBy (sql : Sql) (terms : List SortTerm) : Sql :=
  sql ++ [.text " ORDER BY "] ++ Sql.ordering terms

def bound (condition : Sql.Clause) : List (Option Value) :=
  condition.params.map some

/-- A selection of everything that meets the condition, in the order of the members' ids, up to a cap if there is
one. -/
def selectCapped (columns : String) (source : Sql) (condition : Sql.Clause) (cap : Option Int64) : Statement :=
  let sql := orderedBy (selectWhere columns source condition) []
  match cap with
  | none => ⟨sql, bound condition⟩
  | some limit => ⟨sql ++ [.text " LIMIT ", .slot (condition.next 1)], bound condition ++ [int limit]⟩

def selectCount (source : Sql) (condition : Sql.Clause) : Statement :=
  ⟨selectWhere "COUNT(*)" source condition, bound condition⟩

/-- The stretch of a selection that a page request asks for. -/
def selectPage (columns : String) (source : Sql) (condition : Sql.Clause) (request : PageRequest) : Statement :=
  let next := condition.next 1
  ⟨orderedBy (selectWhere columns source condition) request.sort ++
      [.text " LIMIT ", .slot next, .text " OFFSET ", .slot (next + 1)],
    bound condition ++ [int request.limit, int request.offset]⟩

end Roster.Store
