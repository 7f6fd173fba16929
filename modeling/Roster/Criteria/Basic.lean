import Roster.Predicate.Basic
import Roster.Text.Blank

/-! # Search criteria

The four optional filters of a member search and the predicate that they amount to.  A blank text filters nothing,
just like an absent one.
-/

namespace Roster

/-- What a member search asks for; an absent part asks for nothing. -/
structure Criteria where
  username : Option String
  teamName : Option String
  minAge : Option Int32
  maxAge : Option Int32
deriving Repr, DecidableEq

namespace Criteria

def empty : Criteria :=
  ⟨none, none, none, none⟩

/-! ## Filters -/

/-- A text that is present and not blank, as filter on a field. -/
def textFilter (field : Field) (text : Option String) : Option Predicate :=
  (text.filter (!Text.isBlank ·)).map fun s => .compare field .eq (.text s)

def usernameIs (username : Option String) : Option Predicate :=
  textFilter .username username

def teamNameIs (teamName : Option String) : Option Predicate :=
  textFilter .teamName teamName

def ageAtLeast (age : Option Int32) : Option Predicate :=
  age.map fun n => .compare .age .ge (.ofInt32 n)

def ageAtMost (age : Option Int32) : Option Predicate :=
  age.map fun n => .compare .age .le (.ofInt32 n)

/-- Members with an age between the bounds that are present; no filter without a bound. -/
def ageBetween (minAge maxAge : Option Int32) : Option Predicate :=
  match ageAtLeast minAge, ageAtMost maxAge with
  | none, none => none
  | lower, upper => some (.allOf [lower, upper])

/-- The predicate that the criteria amount to; its terms stand in the order of the parts. -/
def filter (c : Criteria) : Predicate :=
  .allOf [usernameIs c.username, teamNameIs c.teamName, ageAtLeast c.minAge, ageAtMost c.maxAge]

/-- Whether the criteria let every member through. -/
def isUnfiltered (c : Criteria) : Bool :=
  c.filter.isAlways

end Criteria

end Roster
