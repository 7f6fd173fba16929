import Roster.Record

/-! # Predicates

Boolean expressions over the fields of a record, and the operations that build them from optional parts.

* `Predicate.allOf` joins the filters that are present by "and", `Predicate.anyOf` by "or".
* Both flatten groups of their own kind by one level and return a single term as it is.
* No filter at all gives `Predicate.always`: what is absent restricts nothing.
-/

namespace Roster

/-- A boolean expression over fields.  An empty `all` is true and an empty `any` is false. -/
inductive Predicate where
  | always
  | compare (field : Field) (op : Comparison) (value : Value)
  | all (terms : List Predicate)
  | any (terms : List Predicate)
  | not (term : Predicate)
deriving Repr

namespace Predicate

/-- Whether the predicate is the one that restricts nothing. -/
def isAlways : Predicate → Bool
  | .always => true
  | _ => false

/-! ## Conjunction -/

/-- The terms that a predicate brings into a conjunction. -/
def conjuncts : Predicate → List Predicate
  | .always => []
  | .all terms => terms
  | p => [p]

/-- The conjunction of terms; a group is made for two terms or more only. -/
def ofConjuncts : List Predicate → Predicate
  | [] => .always
  | [p] => p
  | ps => .all ps

/-- The conjunction of the filters that are present. -/
def allOf (filters : List (Option Predicate)) : Predicate :=
  ofConjuncts ((filters.filterMap id).flatMap conjuncts)

def and (p q : Predicate) : Predicate :=
  allOf [some p, some q]

/-! ## Disjunction -/

/-- The terms that a predicate brings into a disjunction. -/
def disjuncts : Predicate → List Predicate
  | .any terms => terms
  | p => [p]

/-- The disjunction of terms; a group is made for two terms or more only, and no term restricts nothing. -/
def ofDisjuncts : List Predicate → Predicate
  | [] => .always
  | [p] => p
  | ps => .any ps

/-- The disjunction of the filters that are present; one that restricts nothing makes the rest irrelevant. -/
def anyOf (filters : List (Option Predicate)) : Predicate :=
  let present := filters.filterMap id
  if present.any isAlways then .always else ofDisjuncts (present.flatMap disjuncts)

def or (p q : Predicate) : Predicate :=
  anyOf [some p, some q]

/-! ## Fields -/

mutual

/-- The fields of the comparisons, from left to right, added to those already `seen`. -/
def fieldsAfter (seen : List Field) : Predicate → List Field
  | .always => seen
  | .compare field _ _ => if seen.contains field then seen else seen ++ [field]
  | .all terms => fieldsAfterAll seen terms
  | .any terms => fieldsAfterAll seen terms
  | .not term => fieldsAfter seen term

def fieldsAfterAll (seen : List Field) : List Predicate → List Field
  | [] => seen
  | term :: terms => fieldsAfterAll (fieldsAfter seen term) terms

end

/-- The fields that the predicate compares, each once, in order of first appearance. -/
def fields (p : Predicate) : List Field :=
  fieldsAfter [] p

/-- Whether a comparison looks at a field of the team. -/
def referencesTeam (p : Predicate) : Bool :=
  p.fields.any (·.entity == .team)

end Predicate

end Roster
