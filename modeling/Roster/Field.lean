/-! # Fields

The fields that a member can be searched and sorted by, the entity that owns each of them and its column there.
-/

namespace Roster

/-- The two kinds of things that the roster stores. -/
inductive Entity where
  | member
  | team
deriving Repr, DecidableEq

/-- The fields of a member together with the member's team. -/
inductive Field where
  | memberId
  | username
  | age
  | teamId
  | teamName
deriving Repr, DecidableEq

def Entity.name : Entity → String
  | .member => "member"
  | .team => "team"

def Entity.named? (s : String) : Option Entity :=
  [member, team].find? (·.name == s)

/-- The letter that stands for an entity's table in a query. -/
def Entity.alias : Entity → String
  | .member => "m"
  | .team => "t"

namespace Field

def values : List Field :=
  [.memberId, .username, .age, .teamId, .teamName]

/-- The entity whose table holds the field. -/
def entity : Field → Entity
  | .memberId | .username | .age => .member
  | .teamId | .teamName => .team

def column : Field → String
  | .memberId => "member_id"
  | .username => "username"
  | .age => "age"
  | .teamId => "team_id"
  | .teamName => "name"

def name : Field → String
  | .memberId => "memberId"
  | .username => "username"
  | .age => "age"
  | .teamId => "teamId"
  | .teamName => "teamName"

def named? (s : String) : Option Field :=
  values.find? (·.name == s)

/-- The other spellings under which a sort key may name a field. -/
def aliases : Field → List String
  | .memberId => ["member_id", "id"]
  | .teamId => ["team_id"]
  | .teamName => ["team_name"]
  | .username | .age => []

/-- The field that a sort key names, by its public name or another spelling. -/
def parse? (s : String) : Option Field :=
  values.find? fun field => field.name == s || field.aliases.contains s

end Field

end Roster
