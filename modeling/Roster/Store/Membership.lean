import Roster.Store.Program
import Roster.Store.Tables
import Roster.Text.Blank

/-! # Teams and members in a store

Calls that add, look up, list, move and remove teams and members.  What is to be written is checked first, and a
team that a member is put into has to exist.
-/

namespace Roster.Store

/-! ## Teams -/

/-- Adds a team; trimming must leave something of its name. -/
def saveTeam (config : Config) (name : String) : Program Team := do
  if (Text.trimChars name.toList).isEmpty then
    .fail (.validation .blankTeamName)
  else
    let id ← Program.fetchValue .teamId (insertTeam config name)
    return ⟨id, name⟩

def findTeam (config : Config) (id : Int64) : Program (Option Team) :=
  Program.fetchFirst? Team.ofRow (selectTeam config id)

def listTeams (config : Config) : Program (List Team) :=
  Program.fetchAll Team.ofRow (selectTeams config)

/-- Goes on only if the team exists; no team at all is fine, too. -/
def requireTeam (config : Config) : Option Int64 → Program Unit
  | none => pure ()
  | some id => do
    match ← findTeam config id with
    | some _ => pure ()
    | none => .fail (.teamNotFound (toString id.toInt))

/-! ## Members -/

/-- A new member has a name of which trimming leaves something, and an age that is not negative. -/
def checkMember (member : NewMember) : Except Violation Unit :=
  if (Text.trimChars member.username.toList).isEmpty then .error .blankUsername
  else if member.age < 0 then .error (.negativeAge member.age)
  else .ok ()

def saveMember (config : Config) (member : NewMember) : Program Member := do
  Program.ofExcept .validation (checkMember member)
  requireTeam config member.teamId
  let id ← Program.fetchValue .memberId (insertMemberForId config member)
  return ⟨id, member.username, member.age, member.teamId⟩

def findMember (config : Config) (id : Int64) : Program (Option Member) :=
  Program.fetchFirst? Member.ofRow (selectMember config id)

def listMembers (config : Config) : Program (List Member) :=
  Program.fetchAll Member.ofRow (selectMembers config)

def listMembersNamed (config : Config) (username : String) : Program (List Member) :=
  Program.fetchAll Member.ofRow (selectMembersNamed config username)

/-- Runs a statement that has to change at least one row of a member. -/
def executeOn (memberId : Int64) (statement : Statement) : Program Unit := do
  let affected ← Program.execute statement
  if affected = 0 then .fail (.memberNotFound (toString memberId.toInt)) else pure ()

def changeTeam (config : Config) (memberId : Int64) (teamId : Option Int64) : Program Unit := do
  requireTeam config teamId
  executeOn memberId (updateTeam config memberId teamId)

def removeMember (config : Config) (memberId : Int64) : Program Unit :=
  executeOn memberId (deleteMember config memberId)

/-! ## Reports -/

def listSummaries (config : Config) : Program (List Summary) :=
  Program.fetchAll Summary.ofRow (selectSummaries config)

def ageStats (config : Config) : Program AgeStats :=
  Program.fetchFirst AgeStats.ofRow (selectAgeStats config)

def teamAgeStats (config : Config) : Program (List TeamAgeStats) :=
  Program.fetchAll TeamAgeStats.ofRow (selectTeamAgeStats config)

/-! ## Sample data -/

/-- The sample member of a number: named and aged after it, with even numbers in the first team. -/
def sampleMember (first second : Team) (number : Nat) : NewMember :=
  ⟨s!"member{number}", Int32.ofNat number, some (if number % 2 = 0 then first.id else second.id)⟩

/-- Adds `count` sample members from a number on. -/
def seedMembers (config : Config) (first second : Team) (number : Nat) : Nat → Program Unit
  | 0 => pure ()
  | count + 1 => do
    let _ ← Program.execute (insertMember config (sampleMember first second number))
    seedMembers config first second (number + 1) count

/-- Adds two sample teams and that many members in them. -/
def seed (config : Config) (count : Int32) : Program (Team × Team) := do
  let first ← saveTeam config "teamA"
  let second ← saveTeam config "teamB"
  seedMembers config first second 0 count.toInt.toNat
  .report (.seeded count) (pure (first, second))

end Roster.Store
