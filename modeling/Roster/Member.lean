import Roster.Decimal
import Roster.Record

/-! # Teams and members

What the roster holds, the projections that searches and reports produce, and the records that predicates see.
-/

namespace Roster

structure Team where
  id : Int64
  name : String
deriving Repr, DecidableEq

/-- A member, who belongs to at most one team. -/
structure Member where
  id : Int64
  username : String
  age : Int32
  teamId : Option Int64
deriving Repr, DecidableEq

/-- A member who is not stored yet. -/
structure NewMember where
  username : String
  age : Int32
  teamId : Option Int64
deriving Repr, DecidableEq

def NewMember.solo (username : String) (age : Int32) : NewMember :=
  ⟨username, age, none⟩

def NewMember.inTeam (member : NewMember) (teamId : Int64) : NewMember :=
  { member with teamId := some teamId }

/-- A line of the roster: a member beside the member's team. -/
structure Entry where
  memberId : Int64
  username : String
  age : Int32
  teamId : Option Int64
  teamName : Option String
deriving Repr, DecidableEq

/-- The line for a member and the team that the member belongs to, if any. -/
def Entry.ofTeam (memberId : Int64) (username : String) (age : Int32) (team : Option Team) : Entry :=
  ⟨memberId, username, age, team.map Team.id, team.map Team.name⟩

structure Summary where
  username : String
  age : Int32
deriving Repr, DecidableEq

def Member.summary (member : Member) : Summary :=
  ⟨member.username, member.age⟩

/-- Ages over all members; without members there is no average, maximum or minimum. -/
structure AgeStats where
  count : Int64
  sum : Int64
  average : Option Decimal
  maximum : Option Int32
  minimum : Option Int32
deriving Repr, DecidableEq

/-- Ages over the members of a team. -/
structure TeamAgeStats where
  teamName : String
  count : Int64
  sum : Int64
  average : Decimal
  maximum : Int32
  minimum : Int32
deriving Repr, DecidableEq

/-! ## What predicates see -/

/-- A line of the roster has all fields; a member without a team has no team id and name. -/
def Entry.record (entry : Entry) : Record
  | .memberId => some (.int entry.memberId)
  | .username => some (.text entry.username)
  | .age => some (.ofInt32 entry.age)
  | .teamId => entry.teamId.map .int
  | .teamName => entry.teamName.map .text

/-- A member alone knows the team's id but not its name. -/
def Member.record (member : Member) : Record
  | .memberId => some (.int member.id)
  | .username => some (.text member.username)
  | .age => some (.ofInt32 member.age)
  | .teamId => member.teamId.map .int
  | .teamName => none

end Roster
