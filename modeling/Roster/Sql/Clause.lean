import Roster.Predicate.Basic
import Roster.Sort
import Roster.Sql.Basic

/-! # Clauses

The condition of a predicate and the ordering of sort terms as parts of a statement.  Comparisons take the slots
from a given number on, from left to right, and every term of a group stands in parentheses.  The numbers are counted
with 32 bits, so after the greatest of them comes the least.
-/

namespace Roster.Sql

/-- The text of a condition beside the values for its slots. -/
structure Clause where
  sql : Sql
  params : List Value
deriving Repr, DecidableEq

def enclosed (sql : Sql) : Sql :=
  .text "(" :: sql ++ [.text ")"]

/-- Conditions in parentheses with `joiner` between them, or what stands for no condition at all. -/
def Clause.group (empty joiner : String) : List Clause → Clause
  | [] => ⟨[.text empty], []⟩
  | cs => ⟨joinWith joiner (cs.map fun c => enclosed c.sql), cs.flatMap Clause.params⟩

/-- The number of the slot that follows those of the condition. -/
def Clause.next (c : Clause) (n : Int32) : Int32 :=
  n + .ofNat c.params.length

mutual

/-- The condition of a predicate whose first slot has the number `n`. -/
def clauseFrom (n : Int32) : Predicate → Clause
  | .always => ⟨[.text "TRUE"], []⟩
  | .compare field op value => ⟨[.column field, .text (" " ++ op.symbol ++ " "), .slot n], [value]⟩
  | .all terms => .group "TRUE" " AND " (clausesFrom n terms)
  | .any terms => .group "FALSE" " OR " (clausesFrom n terms)
  | .not term =>
    let c := clauseFrom n term
    ⟨.text "NOT " :: enclosed c.sql, c.params⟩

/-- The conditions of terms in turn; each takes its slots where the one before it stopped. -/
def clausesFrom (n : Int32) : List Predicate → List Clause
  | [] => []
  | term :: terms =>
    let c := clauseFrom n term
    c :: clausesFrom (c.next n) terms

end

/-! ## Orderings -/

def sortTerm (term : SortTerm) : Sql :=
  [.column term.field, .text (" " ++ term.direction.keyword)] ++
    match term.nulls with
    | some placement => [.text (" " ++ placement.keyword)]
    | none => []

/-- The terms by which to sort: those given, and then the member's id unless it is among them, so that no two
members are in the same place. -/
def totalOrder (terms : List SortTerm) : List SortTerm :=
  if terms.any (·.field == .memberId) then terms else terms ++ [.asc .memberId]

def ordering (terms : List SortTerm) : Sql :=
  joinWith ", " ((totalOrder terms).map sortTerm)

end Roster.Sql
