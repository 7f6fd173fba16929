import Roster.Field
import Roster.Value

/-! # Records

A record is what a predicate looks at: a value for each field, or nothing where the field is empty.
-/

namespace Roster

/-- The value of each field; `none` where the record has none. -/
abbrev Record : Type :=
  Field → Option Value

/-- The record with just the given values; the first one given for a field counts. -/
def Record.ofList (values : List (Field × Value)) : Record :=
  fun field => (values.find? (·.1 == field)).map (·.2)

end Roster
