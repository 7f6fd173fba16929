/-! # Values and comparisons

What a field is compared with, how two values of one kind are ordered, and which orderings satisfy a comparison.
-/

namespace Roster

/-- A literal: a 64-bit integer or a text. -/
inductive Value where
  | int (n : Int64)
  | text (s : String)
deriving Repr, DecidableEq

namespace Value

def ofInt32 (n : Int32) : Value :=
  .int n.toInt64

/-- Integers compare by size and texts by code points; values of different kinds do not compare. -/
def compare? : Value → Value → Option Ordering
  | .int a, .int b => some (compare a.toInt b.toInt)
  | .text a, .text b => some (compare a b)
  | .int _, .text _ | .text _, .int _ => none

/-- The literal as written for people: texts stand in single quotes, and a quote inside is written twice. -/
def literal : Value → String
  | .int n => toString n.toInt
  | .text s => "'" ++ String.ofList (s.toList.flatMap fun c => if c = '\'' then ['\'', '\''] else [c]) ++ "'"

end Value

/-- The comparisons that a predicate can make. -/
inductive Comparison where
  | eq
  | ne
  | gt
  | ge
  | lt
  | le
deriving Repr, DecidableEq

namespace Comparison

def values : List Comparison :=
  [.eq, .ne, .gt, .ge, .lt, .le]

def symbol : Comparison → String
  | .eq => "="
  | .ne => "!="
  | .gt => ">"
  | .ge => ">="
  | .lt => "<"
  | .le => "<="

def name : Comparison → String
  | .eq => "Eq"
  | .ne => "Ne"
  | .gt => "Gt"
  | .ge => "Gte"
  | .lt => "Lt"
  | .le => "Lte"

def named? (s : String) : Option Comparison :=
  values.find? (·.name == s)

/-- Whether the comparison is satisfied when the left side stands in that order to the right one. -/
def holds : Comparison → Ordering → Bool
  | .eq, o => o == .eq
  | .ne, o => o != .eq
  | .gt, o => o == .gt
  | .ge, o => o != .lt
  | .lt, o => o == .lt
  | .le, o => o != .gt

end Comparison

end Roster
