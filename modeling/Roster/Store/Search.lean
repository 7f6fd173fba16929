import Roster.Criteria.Basic
import Roster.Page
import Roster.Store.Program
import Roster.Store.Tables

/-! # Searching a store

Three searches share one filter and one policy: for lines of the roster, for a page of them, and for members
alone.  Criteria that filter nothing are answered with a warning, answered up to a cap, or refused.
-/

namespace Roster.Store

def entryColumns : String :=
  "m.member_id, m.username, m.age, t.team_id AS team_id, t.name AS team_name"

def foundMemberColumns : String :=
  "m.member_id, m.username, m.age, m.team_id"

/-- The cap on the rows of a search with that filter, after the policy for unfiltered searches. -/
def capFor (config : Config) (filter : Predicate) : Program (Option Int64) :=
  if filter.isAlways then
    match config.unfiltered with
    | .allow => .report .unfiltered (pure none)
    | .cap limit => .report (.capped limit) (pure (some limit))
    | .reject => .fail .unfilteredSearch
  else pure none

def condition (filter : Predicate) : Sql.Clause :=
  Sql.clauseFrom 1 filter

/-- The lines of the roster that meet the criteria. -/
def search (config : Config) (criteria : Criteria) : Program (List Entry) := do
  let filter := criteria.filter
  let cap ← capFor config filter
  Program.fetchAll Entry.ofRow (selectCapped entryColumns (membersWithTeams config) (condition filter) cap)

/-- The members that meet the criteria.  The teams are joined only when the filter looks at them. -/
def searchMembers (config : Config) (criteria : Criteria) : Program (List Member) := do
  let filter := criteria.filter
  let cap ← capFor config filter
  let source := if filter.referencesTeam then membersWithTeams config else membersAlone config
  Program.fetchAll Member.ofRow (selectCapped foundMemberColumns source (condition filter) cap)

/-- The page request with a limit of at most the cap. -/
def capped (request : PageRequest) : Option Int64 → PageRequest
  | none => request
  | some cap => { request with limit := min request.limit cap }

/-- A page of the lines of the roster that meet the criteria, with the number of all of them. -/
def searchPage (config : Config) (criteria : Criteria) (request : PageRequest) : Program (Page Entry) := do
  Program.ofExcept (fun fault => .validation (.page fault)) request.check
  let filter := criteria.filter
  let cap ← capFor config filter
  let request := capped request cap
  let source := membersWithTeams config
  let total ← Program.fetchValue .count (selectCount source (condition filter))
  let content ← Program.fetchAll Entry.ofRow (selectPage entryColumns source (condition filter) request)
  return Page.ofRequest content total request

end Roster.Store
