import Roster.Json.Basic
import Roster.Member

/-! # Teams, members and statistics as documents

The records of the roster.  A member without a team leaves the team out of its document; a line of the roster and
the statistics write null for what is missing.
-/

namespace Roster

namespace Team

def ofJson? (j : Json) : Option Team := do
  let fields ← j.fields? 2
  let id ← fields.required 0 "id" Json.int64?
  let name ← fields.required 1 "name" Json.text?
  return ⟨id, name⟩

def toJson (team : Team) : Json :=
  .object [("id", .ofInt64 team.id), ("name", .text team.name)]

end Team

namespace Member

def ofJson? (j : Json) : Option Member := do
  let fields ← j.fields? 4
  let id ← fields.required 0 "id" Json.int64?
  let username ← fields.required 1 "username" Json.text?
  let age ← fields.required 2 "age" Json.int32?
  let teamId ← fields.nullable 3 "teamId" Json.int64?
  return ⟨id, username, age, teamId⟩

def toJson (member : Member) : Json :=
  .object ([("id", .ofInt64 member.id), ("username", .text member.username), ("age", .ofInt32 member.age)] ++
    Json.entryOf "teamId" .ofInt64 member.teamId)

end Member

namespace NewMember

def ofJson? (j : Json) : Option NewMember := do
  let fields ← j.fields? 3
  let username ← fields.required 0 "username" Json.text?
  let age ← fields.required 1 "age" Json.int32?
  let teamId ← fields.withDefault 2 "teamId" none (Json.orNull? Json.int64?)
  return ⟨username, age, teamId⟩

def toJson (member : NewMember) : Json :=
  .object ([("username", .text member.username), ("age", .ofInt32 member.age)] ++
    Json.entryOf "teamId" .ofInt64 member.teamId)

end NewMember

namespace Entry

def ofJson? (j : Json) : Option Entry := do
  let fields ← j.fields? 5
  let memberId ← fields.required 0 "memberId" Json.int64?
  let username ← fields.required 1 "username" Json.text?
  let age ← fields.required 2 "age" Json.int32?
  let teamId ← fields.nullable 3 "teamId" Json.int64?
  let teamName ← fields.nullable 4 "teamName" Json.text?
  return ⟨memberId, username, age, teamId, teamName⟩

def toJson (entry : Entry) : Json :=
  .object [("memberId", .ofInt64 entry.memberId), ("username", .text entry.username), ("age", .ofInt32 entry.age),
    ("teamId", .ofOption .ofInt64 entry.teamId), ("teamName", .ofOption .text entry.teamName)]

end Entry

namespace Summary

def ofJson? (j : Json) : Option Summary := do
  let fields ← j.fields? 2
  let username ← fields.required 0 "username" Json.text?
  let age ← fields.required 1 "age" Json.int32?
  return ⟨username, age⟩

def toJson (summary : Summary) : Json :=
  .object [("username", .text summary.username), ("age", .ofInt32 summary.age)]

end Summary

namespace AgeStats

def ofJson? (j : Json) : Option AgeStats := do
  let fields ← j.fields? 5
  let count ← fields.required 0 "count" Json.int64?
  let sum ← fields.required 1 "sumAge" Json.int64?
  let average ← fields.nullable 2 "avgAge" Json.decimal?
  let maximum ← fields.nullable 3 "maxAge" Json.int32?
  let minimum ← fields.nullable 4 "minAge" Json.int32?
  return ⟨count, sum, average, maximum, minimum⟩

def toJson (stats : AgeStats) : Json :=
  .object [("count", .ofInt64 stats.count), ("sumAge", .ofInt64 stats.sum),
    ("avgAge", .ofOption .decimal stats.average), ("maxAge", .ofOption .ofInt32 stats.maximum),
    ("minAge", .ofOption .ofInt32 stats.minimum)]

end AgeStats

namespace TeamAgeStats

def ofJson? (j : Json) : Option TeamAgeStats := do
  let fields ← j.fields? 6
  let teamName ← fields.required 0 "teamName" Json.text?
  let count ← fields.required 1 "count" Json.int64?
  let sum ← fields.required 2 "sumAge" Json.int64?
  let average ← fields.required 3 "avgAge" Json.decimal?
  let maximum ← fields.required 4 "maxAge" Json.int32?
  let minimum ← fields.required 5 "minAge" Json.int32?
  return ⟨teamName, count, sum, average, maximum, minimum⟩

def toJson (stats : TeamAgeStats) : Json :=
  .object [("teamName", .text stats.teamName), ("count", .ofInt64 stats.count), ("sumAge", .ofInt64 stats.sum),
    ("avgAge", .decimal stats.average), ("maxAge", .ofInt32 stats.maximum), ("minAge", .ofInt32 stats.minimum)]

end TeamAgeStats

end Roster
