import Roster.Predicate.Basic
import Roster.Truth

/-! # Evaluating predicates

The truth of a predicate on a record, in three values: comparing an empty field, or values of different kinds, is
unknown.  Groups are read from left to right and stop at the first term that decides them.
-/

namespace Roster.Predicate

def compareTruth (r : Record) (field : Field) (op : Comparison) (value : Value) : Truth :=
  match r field with
  | none => .unknown
  | some actual =>
    match actual.compare? value with
    | none => .unknown
    | some order => .ofBool (op.holds order)

mutual

def truth (r : Record) : Predicate → Truth
  | .always => .yes
  | .compare field op value => compareTruth r field op value
  | .all terms => truthOfAll r .yes terms
  | .any terms => truthOfAny r .no terms
  | .not term => (truth r term).negate

/-- The truth of a conjunction whose earlier terms came to `sofar`, which is not false. -/
def truthOfAll (r : Record) (sofar : Truth) : List Predicate → Truth
  | [] => sofar
  | term :: terms =>
    match truth r term with
    | .no => .no
    | .unknown => truthOfAll r .unknown terms
    | .yes => truthOfAll r sofar terms

/-- The truth of a disjunction whose earlier terms came to `sofar`, which is not true. -/
def truthOfAny (r : Record) (sofar : Truth) : List Predicate → Truth
  | [] => sofar
  | term :: terms =>
    match truth r term with
    | .yes => .yes
    | .unknown => truthOfAny r .unknown terms
    | .no => truthOfAny r sofar terms

end

/-- Whether a record satisfies the predicate; an unknown truth does not. -/
def holds (p : Predicate) (r : Record) : Bool :=
  truth r p == .yes

end Roster.Predicate
