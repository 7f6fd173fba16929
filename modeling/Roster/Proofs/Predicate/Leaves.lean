import Roster.Proofs.Predicate.Conjunction

/-! # The comparisons in a predicate

The leaves of a predicate are its comparisons, at any depth and from left to right.  Conjunctions neither drop nor
repeat a comparison, and they keep the order.

* `leaves`: the comparisons of a predicate.
* `leaves_allOf`: the comparisons of a conjunction of optional filters.
-/

namespace Roster.Predicate

/-- A comparison of a field with a value. -/
structure Leaf where
  field : Field
  op : Comparison
  value : Value
deriving Repr, DecidableEq

def Leaf.predicate (leaf : Leaf) : Predicate :=
  .compare leaf.field leaf.op leaf.value

mutual

/-- The comparisons of a predicate, from left to right. -/
def leaves : Predicate → List Leaf
  | .always => []
  | .compare field op value => [⟨field, op, value⟩]
  | .all terms => leavesOfAll terms
  | .any terms => leavesOfAll terms
  | .not term => leaves term

def leavesOfAll : List Predicate → List Leaf
  | [] => []
  | term :: terms => leaves term ++ leavesOfAll terms

end

theorem leavesOfAll_eq (terms : List Predicate) : leavesOfAll terms = terms.flatMap leaves := by
  induction terms with
  | nil => rw [leavesOfAll, List.flatMap_nil]
  | cons term terms ih => rw [leavesOfAll, List.flatMap_cons, ih]

@[simp]
theorem leaves_always : leaves .always = [] := by
  rw [leaves]

@[simp]
theorem leaves_predicate (leaf : Leaf) : leaf.predicate.leaves = [leaf] := by
  rw [Leaf.predicate, leaves]

@[simp]
theorem leaves_all (terms : List Predicate) : leaves (.all terms) = terms.flatMap leaves := by
  rw [leaves, leavesOfAll_eq]

@[simp]
theorem leaves_any (terms : List Predicate) : leaves (.any terms) = terms.flatMap leaves := by
  rw [leaves, leavesOfAll_eq]

@[simp]
theorem leaves_not (term : Predicate) : leaves (.not term) = term.leaves := by
  rw [leaves]

/-- What a predicate brings into a conjunction are all its comparisons. -/
theorem leaves_conjuncts (p : Predicate) : (conjuncts p).flatMap leaves = p.leaves := by
  cases p with
  | always => rw [conjuncts, List.flatMap_nil, leaves_always]
  | all terms => rw [conjuncts, leaves_all]
  | compare | any | not => exact List.flatMap_singleton ..

theorem leaves_ofConjuncts (ps : List Predicate) : (ofConjuncts ps).leaves = ps.flatMap leaves := by
  match ps with
  | [] => rw [ofConjuncts, leaves_always, List.flatMap_nil]
  | [p] => exact (List.flatMap_singleton ..).symm
  | p :: q :: ps => exact leaves_all (p :: q :: ps)

/-- A conjunction has the comparisons of the filters that are present, in their order. -/
theorem leaves_allOf (filters : List (Option Predicate)) :
    (allOf filters).leaves = (present filters).flatMap leaves := by
  rw [allOf, leaves_ofConjuncts, List.flatMap_assoc]
  simp only [leaves_conjuncts]

end Roster.Predicate
