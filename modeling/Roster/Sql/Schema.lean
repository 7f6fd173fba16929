import Roster.Config
import Roster.Sql.Basic

/-! # Schema

The statements that make and remove the tables of a configuration.
-/

namespace Roster.Sql

/-- The name of the index that supports the join of members with teams. -/
def teamIndex (config : Config) : String :=
  config.membersTable ++ "_team_id_idx"

def createTeams (config : Config) : Sql :=
  [.text "CREATE TABLE IF NOT EXISTS ", .quoted config.teamsTable,
   .text " (team_id BIGSERIAL PRIMARY KEY, name TEXT NOT NULL)"]

/-- Makes the members table, whose rows may refer to a team. -/
def createMembers (config : Config) : Sql :=
  [.text "CREATE TABLE IF NOT EXISTS ", .quoted config.membersTable,
   .text " (member_id BIGSERIAL PRIMARY KEY, username TEXT NOT NULL, age INTEGER NOT NULL, team_id BIGINT REFERENCES ",
   .quoted config.teamsTable, .text " (team_id))"]

/-- Makes the index on the team of a member. -/
def createTeamIndex (config : Config) : Sql :=
  [.text "CREATE INDEX IF NOT EXISTS ", .quoted (teamIndex config), .text " ON ", .quoted config.membersTable,
   .text " (team_id)"]

/-- Removes a table with all that depends on it. -/
def dropTable (table : String) : Sql :=
  [.text "DROP TABLE IF EXISTS ", .quoted table, .text " CASCADE"]

/-- Makes all that a store needs; the teams come first because members refer to them. -/
def schema (config : Config) : List Sql :=
  [createTeams config, createMembers config, createTeamIndex config]

/-- Removes both tables; the members go first because they refer to teams. -/
def dropSchema (config : Config) : List Sql :=
  [dropTable config.membersTable, dropTable config.teamsTable]

end Roster.Sql
