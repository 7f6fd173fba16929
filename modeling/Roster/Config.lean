import Roster.Sql.TableName

/-! # Configuration

How a store is set up: its database, its tables and what it does with a search that filters nothing.
-/

namespace Roster

/-- What to do with a search that lets every member through: answer it, cap the number of rows, or refuse it. -/
inductive UnfilteredPolicy where
  | allow
  | cap (limit : Int64)
  | reject
deriving Repr, DecidableEq

/-- The set-up of a store. -/
structure Config where
  databaseUrl : String
  membersTable : String
  teamsTable : String
  unfiltered : UnfilteredPolicy
  maxConnections : UInt32
deriving Repr, DecidableEq

namespace Config

/-- The set-up for a database with nothing else chosen. -/
def ofUrl (url : String) : Config :=
  ⟨url, "members", "teams", .allow, 5⟩

/-- The set-up with both tables named after a common stem. -/
def withStem (config : Config) (stem : String) : Config :=
  { config with membersTable := stem ++ "_members", teamsTable := stem ++ "_teams" }

/-- Refuses names that no table may have, one table for both kinds, and a cap that lets no row through. -/
def check (config : Config) : Except Violation Unit := do
  (Sql.checkName config.membersTable).mapError .name
  (Sql.checkName config.teamsTable).mapError .name
  if config.membersTable = config.teamsTable then
    throw (.sharedTable config.membersTable)
  match config.unfiltered with
  | .cap limit => if limit ≤ 0 then throw (.noCap limit)
  | .allow | .reject => pure ()

end Config

end Roster
