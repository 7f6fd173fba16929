import Roster.Json.Member
import Roster.Json.Page
import Roster.Store.Call

/-! # Answers as documents

What a call of a store returns, as document; a call that returns nothing, or finds nothing, gives null.
-/

namespace Roster.Store

def Answer.toJson : Answer → Json
  | .nothing => .null
  | .team found => found.toJson
  | .maybeTeam found => .ofOption Team.toJson found
  | .teams found => .list (found.map Team.toJson)
  | .member found => found.toJson
  | .maybeMember found => .ofOption Member.toJson found
  | .members found => .list (found.map Member.toJson)
  | .summaries found => .list (found.map Summary.toJson)
  | .ageStats found => found.toJson
  | .teamAgeStats found => .list (found.map TeamAgeStats.toJson)
  | .entries found => .list (found.map Entry.toJson)
  | .page found => found.toJson Entry.toJson
  | .names found => .list (found.map .text)

end Roster.Store
