import Roster.Store.Membership
import Roster.Store.Search
import Roster.Store.Setup

/-! # Calls of a store

All calls of a store as one type, and the program of each.
-/

namespace Roster.Store

inductive Call where
  | saveTeam (name : String)
  | findTeam (id : Int64)
  | listTeams
  | saveMember (member : NewMember)
  | findMember (id : Int64)
  | listMembers
  | listMembersNamed (username : String)
  | changeTeam (memberId : Int64) (teamId : Option Int64)
  | removeMember (memberId : Int64)
  | listSummaries
  | ageStats
  | teamAgeStats
  | search (criteria : Criteria)
  | searchMembers (criteria : Criteria)
  | searchPage (criteria : Criteria) (request : PageRequest)
  | seed (count : Int32)
  | dropTables
  | tables
deriving Repr, DecidableEq

inductive Answer where
  | nothing
  | team (team : Team)
  | maybeTeam (team : Option Team)
  | teams (teams : List Team)
  | member (member : Member)
  | maybeMember (member : Option Member)
  | members (members : List Member)
  | summaries (summaries : List Summary)
  | ageStats (stats : AgeStats)
  | teamAgeStats (stats : List TeamAgeStats)
  | entries (entries : List Entry)
  | page (page : Page Entry)
  | names (names : List String)
deriving Repr, DecidableEq

def Call.program (config : Config) : Call → Program Answer
  | .saveTeam name => .team <$> Store.saveTeam config name
  | .findTeam id => .maybeTeam <$> Store.findTeam config id
  | .listTeams => .teams <$> Store.listTeams config
  | .saveMember member => .member <$> Store.saveMember config member
  | .findMember id => .maybeMember <$> Store.findMember config id
  | .listMembers => .members <$> Store.listMembers config
  | .listMembersNamed username => .members <$> Store.listMembersNamed config username
  | .changeTeam memberId teamId => (fun _ => .nothing) <$> Store.changeTeam config memberId teamId
  | .removeMember memberId => (fun _ => .nothing) <$> Store.removeMember config memberId
  | .listSummaries => .summaries <$> Store.listSummaries config
  | .ageStats => .ageStats <$> Store.ageStats config
  | .teamAgeStats => .teamAgeStats <$> Store.teamAgeStats config
  | .search criteria => .entries <$> Store.search config criteria
  | .searchMembers criteria => .members <$> Store.searchMembers config criteria
  | .searchPage criteria request => .page <$> Store.searchPage config criteria request
  | .seed count => (fun (first, second) => .teams [first, second]) <$> Store.seed config count
  | .dropTables => (fun _ => .nothing) <$> Store.dropTables config
  | .tables => pure (.names [config.membersTable, config.teamsTable])

end Roster.Store
