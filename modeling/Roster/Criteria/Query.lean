import Roster.Criteria.Age
import Roster.Criteria.Basic
import Roster.Text.Form

/-! # Criteria in query strings

Reading criteria from the form-encoded pairs of a query string.  Each key may occur once, unknown keys have no
effect, and the first pair that repeats a key or holds a bad age decides the failure.
-/

namespace Roster.Criteria

/-- The parts of the criteria. -/
inductive Key where
  | username
  | teamName
  | minAge
  | maxAge
deriving Repr, DecidableEq

def Key.values : List Key :=
  [.username, .teamName, .minAge, .maxAge]

/-- The name of a part in query strings and documents. -/
def Key.name : Key → String
  | .username => "username"
  | .teamName => "teamName"
  | .minAge => "ageGoe"
  | .maxAge => "ageLoe"

def Key.named? (s : String) : Option Key :=
  values.find? (·.name == s)

/-- Puts the value of a pair into its part; texts are kept as they are, also empty ones. -/
def put (c : Criteria) (key : Key) (value : String) : Except AgeFault Criteria :=
  match key with
  | .username => .ok { c with username := some value }
  | .teamName => .ok { c with teamName := some value }
  | .minAge => (ageOfText value).map fun age => { c with minAge := age }
  | .maxAge => (ageOfText value).map fun age => { c with maxAge := age }

/-- The criteria after the pairs, when the keys `seen` have occurred before and led to `c`. -/
def ofPairsAfter (seen : List Key) (c : Criteria) : List (String × String) → Except SearchFault Criteria
  | [] => .ok c
  | (name, value) :: rest =>
    match Key.named? name with
    | none => ofPairsAfter seen c rest
    | some key =>
      -- a repeated key is refused before its value is looked at
      if seen.contains key then .error (.repeatedKey key.name)
      else match c.put key value with
        | .error fault => .error (.age fault)
        | .ok c => ofPairsAfter (key :: seen) c rest

/-- The criteria that a list of pairs gives. -/
def ofPairs (pairs : List (String × String)) : Except SearchFault Criteria :=
  ofPairsAfter [] empty pairs

/-- A query string without the question mark that may introduce it. -/
def queryBody (s : String) : String :=
  match s.toList with
  | '?' :: cs => String.ofList cs
  | _ => s

/-- The criteria that a query string gives. -/
def ofQuery (s : String) : Except SearchFault Criteria :=
  ofPairs (Text.formPairs (queryBody s))

end Roster.Criteria
