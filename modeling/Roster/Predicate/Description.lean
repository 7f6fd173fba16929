import Roster.Predicate.Basic

/-! # Describing predicates

The text of a predicate for people.  Only a group inside a group and the term of a negation stand in parentheses.
-/

namespace Roster.Predicate

/-- Whether the predicate needs parentheses as a term of a group. -/
def isGroup : Predicate → Bool
  | .all _ | .any _ => true
  | _ => false

/-- The terms of a group with `joiner` between them, or what stands for the group without terms. -/
def joined (empty joiner : String) : List String → String
  | [] => empty
  | term :: terms => joiner.intercalate (term :: terms)

mutual

def describe : Predicate → String
  | .always => "TRUE"
  | .compare field op value => field.name ++ " " ++ op.symbol ++ " " ++ value.literal
  | .all terms => joined "TRUE" " AND " (describeTerms terms)
  | .any terms => joined "FALSE" " OR " (describeTerms terms)
  | .not term => "NOT (" ++ describe term ++ ")"

def describeTerms : List Predicate → List String
  | [] => []
  | term :: terms =>
    (if term.isGroup then "(" ++ describe term ++ ")" else describe term) :: describeTerms terms

end

end Roster.Predicate
