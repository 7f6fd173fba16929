import Mathlib.Data.List.Forall2
import Roster.Store.Row

/-! # What rows show

A thing of the roster is read off a row column by column.  Some of the columns must not be null; the first of them that
is null, in the order in which they are read, is named by the error.  A list of rows is read row by row, and the first
row that cannot be read ends it.

* `Need`, `Row.firstNull?`: the columns that must not be null, and the first of them that is.
* `Row.Yields`: what comes of reading a row; `Row.Yields.need` is the step from one column to the next.
* `Reading`: how things of one kind are read, with the proof that rows yield what they show.
* `Reading.mapM_ok`, `Reading.mapM_error`: all rows are read, or the first one that lacks a value gives the error.
-/

namespace Roster

/-! ## Columns that must not be null -/

/-- A column that must not be null: the name at its head, and whether a row has a value in it. -/
structure Need where
  head : String
  isMet : Row → Bool

/-- The column, as one that must not be null. -/
def Column.required {α : Type} (column : Column α) : Need :=
  ⟨column.head, fun row => (column.get row).isSome⟩

/-- The head of the column if it is null in the row. -/
def Need.nullIn? (row : Row) (need : Need) : Option String :=
  if need.isMet row then none else some need.head

/-- The head of the first of the columns that is null in the row. -/
def Row.firstNull? (needs : List Need) (row : Row) : Option String :=
  needs.findSome? (Need.nullIn? row)

theorem Row.firstNull?_eq_none_iff {needs : List Need} {row : Row} :
    row.firstNull? needs = none ↔ ∀ need ∈ needs, need.isMet row = true := by
  unfold firstNull?
  simp [Need.nullIn?]

section Null

variable {α : Type} {column : Column α} {needs : List Need} {row : Row}

theorem Row.firstNull?_of_null (h : column.get row = none) :
    row.firstNull? (column.required :: needs) = some column.head := by
  simp [firstNull?, Need.nullIn?, Column.required, h]

theorem Row.firstNull?_of_value {value : α} (h : column.get row = some value) :
    row.firstNull? (column.required :: needs) = row.firstNull? needs := by
  simp [firstNull?, Need.nullIn?, Column.required, h]

theorem Column.need_of_null (h : column.get row = none) : column.need row = .error (.nullColumn column.head) := by
  rw [need, h]

theorem Column.need_of_value {value : α} (h : column.get row = some value) : column.need row = .ok value := by
  rw [need, h]

end Null

/-! ## Reading a row -/

namespace Row

variable {α β : Type} {row : Row} {needs : List Need} {shown : α → Prop}

/-- What comes of reading a row: the error that names the first null among the columns that must not be null, or
something that the row shows. -/
def Yields (row : Row) (needs : List Need) (shown : α → Prop) (result : Except SqlFault α) : Prop :=
  match row.firstNull? needs with
  | some column => result = .error (.nullColumn column)
  | none => ∃ a, result = .ok a ∧ shown a

theorem Yields.done {a : α} (h : shown a) : row.Yields [] shown (pure a) :=
  ⟨a, rfl, h⟩

/-- A column that must not be null is read before the others. -/
theorem Yields.need {column : Column β} {next : β → Except SqlFault α}
    (h : ∀ value, column.get row = some value → row.Yields needs shown (next value)) :
    row.Yields (column.required :: needs) shown (column.need row >>= next) := by
  unfold Yields at *
  -- a null in this column is the first one, and a value leaves it to the other columns
  cases hvalue : column.get row with
  | none =>
    rw [firstNull?_of_null hvalue, Column.need_of_null hvalue]
    rfl
  | some value =>
    rw [firstNull?_of_value hvalue, Column.need_of_value hvalue]
    exact h value hvalue

end Row

/-! ## Things in rows -/

structure Team.InRow (row : Row) (team : Team) : Prop where
  id : row.teamId = some team.id
  name : row.name = some team.name

/-- The row shows the member; without a team, its id is null. -/
structure Member.InRow (row : Row) (member : Member) : Prop where
  id : row.memberId = some member.id
  username : row.username = some member.username
  age : row.age = some member.age
  teamId : row.teamId = member.teamId

/-- The row shows the line of the roster; without a team, its id and name are null. -/
structure Entry.InRow (row : Row) (entry : Entry) : Prop where
  memberId : row.memberId = some entry.memberId
  username : row.username = some entry.username
  age : row.age = some entry.age
  teamId : row.teamId = entry.teamId
  teamName : row.teamName = entry.teamName

structure Summary.InRow (row : Row) (summary : Summary) : Prop where
  username : row.username = some summary.username
  age : row.age = some summary.age

structure TeamAgeStats.InRow (row : Row) (stats : TeamAgeStats) : Prop where
  teamName : row.teamName = some stats.teamName
  count : row.count = some stats.count
  sum : row.sumAge = some stats.sum
  average : row.avgAge = some stats.average
  maximum : row.maxAge = some stats.maximum
  minimum : row.minAge = some stats.minimum

/-- How things of one kind are read off rows: the columns that must not be null, in the order in which they are read, and
what it means that a row shows a thing. -/
structure Reading (α : Type) where
  read : Row → Except SqlFault α
  needs : List Need
  Shows : Row → α → Prop
  yields : ∀ row : Row, row.Yields needs (Shows row) (read row)

namespace Reading

def team : Reading Team where
  read := Team.ofRow
  needs := [Column.teamId.required, Column.name.required]
  Shows := Team.InRow
  yields _ := .need fun _ hid => .need fun _ hname => .done ⟨hid, hname⟩

def member : Reading Member where
  read := Member.ofRow
  needs := [Column.memberId.required, Column.username.required, Column.age.required]
  Shows := Member.InRow
  yields _ := .need fun _ hid => .need fun _ hname => .need fun _ hage => .done ⟨hid, hname, hage, rfl⟩

def entry : Reading Entry where
  read := Entry.ofRow
  needs := [Column.memberId.required, Column.username.required, Column.age.required]
  Shows := Entry.InRow
  yields _ := .need fun _ hid => .need fun _ hname => .need fun _ hage => .done ⟨hid, hname, hage, rfl, rfl⟩

def summary : Reading Summary where
  read := Summary.ofRow
  needs := [Column.username.required, Column.age.required]
  Shows := Summary.InRow
  yields _ := .need fun _ hname => .need fun _ hage => .done ⟨hname, hage⟩

def teamAgeStats : Reading TeamAgeStats where
  read := TeamAgeStats.ofRow
  needs := [Column.teamName.required, Column.count.required, Column.sumAge.required, Column.avgAge.required,
    Column.maxAge.required, Column.minAge.required]
  Shows := TeamAgeStats.InRow
  yields _ := .need fun _ hname => .need fun _ hcount => .need fun _ hsum => .need fun _ haverage =>
    .need fun _ hmaximum => .need fun _ hminimum => .done ⟨hname, hcount, hsum, haverage, hmaximum, hminimum⟩

/-! ## Reading all rows -/

variable {α : Type} (reading : Reading α) {row : Row} {rows : List Row}

theorem read_ok (h : row.firstNull? reading.needs = none) :
    ∃ a, reading.read row = .ok a ∧ reading.Shows row a := by
  have hyields := reading.yields row
  unfold Row.Yields at hyields
  rw [h] at hyields
  exact hyields

theorem read_error {column : String} (h : row.firstNull? reading.needs = some column) :
    reading.read row = .error (.nullColumn column) := by
  have hyields := reading.yields row
  unfold Row.Yields at hyields
  rw [h] at hyields
  exact hyields

/-- The head of the first null column of the first row that lacks a value. -/
def firstNull? (rows : List Row) : Option String :=
  rows.findSome? (Row.firstNull? reading.needs)

theorem firstNull?_eq_none_iff :
    reading.firstNull? rows = none ↔ ∀ row ∈ rows, ∀ need ∈ reading.needs, need.isMet row = true := by
  unfold firstNull?
  simp only [List.findSome?_eq_none_iff, Row.firstNull?_eq_none_iff]

/-- Without a null, each row is read as what it shows, in the order of the rows. -/
theorem mapM_ok (h : reading.firstNull? rows = none) :
    ∃ things, rows.mapM reading.read = .ok things ∧ List.Forall₂ reading.Shows rows things := by
  -- each row shows something, and the things are collected in the order of the rows
  induction rows with
  | nil => exact ⟨[], rfl, .nil⟩
  | cons row rows ih =>
    rw [firstNull?, List.findSome?_cons] at h
    cases hrow : row.firstNull? reading.needs with
    | some column =>
      rw [hrow] at h
      cases h
    | none =>
      rw [hrow] at h
      rcases reading.read_ok hrow with ⟨a, hread, hshows⟩
      rcases ih h with ⟨things, hrest, hall⟩
      refine ⟨a :: things, ?_, .cons hshows hall⟩
      rw [List.mapM_cons, hread, hrest]
      rfl

/-- The first null ends the reading. -/
theorem mapM_error {column : String} (h : reading.firstNull? rows = some column) :
    rows.mapM reading.read = .error (.nullColumn column) := by
  induction rows with
  | nil => cases h
  | cons row rows ih =>
    rw [firstNull?, List.findSome?_cons] at h
    rw [List.mapM_cons]
    -- the first row with a null ends the reading, and the column that it names is the first null in that row
    cases hrow : row.firstNull? reading.needs with
    | some first =>
      rw [hrow] at h
      cases h
      rw [reading.read_error hrow]
      rfl
    | none =>
      -- what is read from this row is lost with the rest
      rw [hrow] at h
      rcases reading.read_ok hrow with ⟨a, hread, -⟩
      rw [hread, ih h]
      rfl

end Reading

end Roster
