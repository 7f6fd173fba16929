import Roster.Error
import Roster.Member

/-! # Rows

What a statement returns, column by column, and how rows become things of the roster.  A row that lacks a needed
value is an error that names its first such column.
-/

namespace Roster

/-- One row of a result: a value, or null, for every column that a statement can return. -/
structure Row where
  memberId : Option Int64
  username : Option String
  age : Option Int32
  teamId : Option Int64
  name : Option String
  teamName : Option String
  count : Option Int64
  sumAge : Option Int64
  avgAge : Option Decimal
  maxAge : Option Int32
  minAge : Option Int32
deriving Repr, DecidableEq

/-- A column of a result: the name at its head, and its value in a row. -/
structure Column (α : Type) where
  head : String
  get : Row → Option α

namespace Column

def memberId : Column Int64 := ⟨"member_id", Row.memberId⟩

def username : Column String := ⟨"username", Row.username⟩

def age : Column Int32 := ⟨"age", Row.age⟩

def teamId : Column Int64 := ⟨"team_id", Row.teamId⟩

def name : Column String := ⟨"name", Row.name⟩

def teamName : Column String := ⟨"team_name", Row.teamName⟩

def count : Column Int64 := ⟨"count", Row.count⟩

def sumAge : Column Int64 := ⟨"sum_age", Row.sumAge⟩

def avgAge : Column Decimal := ⟨"avg_age", Row.avgAge⟩

def maxAge : Column Int32 := ⟨"max_age", Row.maxAge⟩

def minAge : Column Int32 := ⟨"min_age", Row.minAge⟩

/-- The value of a column that must not be null. -/
def need {α : Type} (column : Column α) (row : Row) : Except SqlFault α :=
  match column.get row with
  | some value => .ok value
  | none => .error (.nullColumn column.head)

end Column

/-! ## Things in rows -/

def Team.ofRow (row : Row) : Except SqlFault Team := do
  let id ← Column.teamId.need row
  let name ← Column.name.need row
  return ⟨id, name⟩

/-- The member in a row; the team may be null. -/
def Member.ofRow (row : Row) : Except SqlFault Member := do
  let id ← Column.memberId.need row
  let username ← Column.username.need row
  let age ← Column.age.need row
  return ⟨id, username, age, Column.teamId.get row⟩

/-- The line of the roster in a row; the team's id and name may be null. -/
def Entry.ofRow (row : Row) : Except SqlFault Entry := do
  let memberId ← Column.memberId.need row
  let username ← Column.username.need row
  let age ← Column.age.need row
  return ⟨memberId, username, age, Column.teamId.get row, Column.teamName.get row⟩

def Summary.ofRow (row : Row) : Except SqlFault Summary := do
  let username ← Column.username.need row
  let age ← Column.age.need row
  return ⟨username, age⟩

/-- The statistics in a row; average, maximum and minimum may be null. -/
def AgeStats.ofRow (row : Row) : Except SqlFault AgeStats := do
  let count ← Column.count.need row
  let sum ← Column.sumAge.need row
  return ⟨count, sum, Column.avgAge.get row, Column.maxAge.get row, Column.minAge.get row⟩

def TeamAgeStats.ofRow (row : Row) : Except SqlFault TeamAgeStats := do
  let teamName ← Column.teamName.need row
  let count ← Column.count.need row
  let sum ← Column.sumAge.need row
  let average ← Column.avgAge.need row
  let maximum ← Column.maxAge.need row
  let minimum ← Column.minAge.need row
  return ⟨teamName, count, sum, average, maximum, minimum⟩

end Roster
