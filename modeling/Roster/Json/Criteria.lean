import Roster.Criteria.Query
import Roster.Json.Basic

/-! # Criteria as documents

Every part of the criteria may be left out.  An age is a number or a text that an age can be read from, and a bad
age is reported as such; any other document that does not fit is just a mismatch.  The parts of an object are read
in the order of their names, those of a list in their own order, and the first that fails decides.
-/

namespace Roster

/-- Why criteria cannot be read from a document. -/
inductive Json.ReadFault where
  | mismatch
  | age (fault : AgeFault)
deriving Repr, DecidableEq

namespace Criteria

def ageOfJson : Json → Except Json.ReadFault (Option Int32)
  | .null => .ok none
  | .int n =>
    match Integer.to64? n with
    | some n => ((ageOfInt n).map some).mapError .age
    | none => .error .mismatch
  | .text s => (ageOfText s).mapError .age
  | _ => .error .mismatch

def textOfJson (j : Json) : Except Json.ReadFault (Option String) :=
  match Json.orNull? Json.text? j with
  | some text => .ok text
  | none => .error .mismatch

/-- A part of the criteria; what is left out is absent. -/
def partOf {α : Type} (fields : Json.Fields) (place : Nat) (key : Key)
    (read : Json → Except Json.ReadFault (Option α)) : Except Json.ReadFault (Option α) :=
  match fields.get? place key.name with
  | some j => read j
  | none => .ok none

def ofJson : Json → Except Json.ReadFault Criteria
  | .object entries => do
    let fields := Json.Fields.byName entries
    let minAge ← partOf fields 2 .minAge ageOfJson
    let maxAge ← partOf fields 3 .maxAge ageOfJson
    let teamName ← partOf fields 1 .teamName textOfJson
    let username ← partOf fields 0 .username textOfJson
    return ⟨username, teamName, minAge, maxAge⟩
  | .list items => do
    let fields := Json.Fields.byPlace items
    let username ← partOf fields 0 .username textOfJson
    let teamName ← partOf fields 1 .teamName textOfJson
    let minAge ← partOf fields 2 .minAge ageOfJson
    let maxAge ← partOf fields 3 .maxAge ageOfJson
    if fields.fits 4 then return ⟨username, teamName, minAge, maxAge⟩ else throw .mismatch
  | _ => .error .mismatch

/-- The criteria as document; what is absent has no entry. -/
def toJson (c : Criteria) : Json :=
  .object (Json.entryOf Key.username.name .text c.username ++ Json.entryOf Key.teamName.name .text c.teamName ++
    Json.entryOf Key.minAge.name .ofInt32 c.minAge ++ Json.entryOf Key.maxAge.name .ofInt32 c.maxAge)

end Criteria

end Roster
