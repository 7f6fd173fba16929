import Roster.Predicate.Evaluation
import Roster.Proofs.Truth

/-! # The truth of predicates

Evaluation stops at the first term that decides a group and otherwise remembers whether a term was unknown.  None of
this shows in the result: a group of predicates has the truth of the group of their truths.

* `Predicate.truth_all`, `Predicate.truth_any`: the truth of a group.
* `Predicate.induct`: induction over the terms of groups at any depth.
-/

namespace Roster.Predicate

/-- Induction over a predicate; a property of a group may rest on the property of all of its terms. -/
@[elab_as_elim]
theorem induct {motive : Predicate → Prop} (always : motive .always)
    (compare : ∀ field op value, motive (.compare field op value))
    (all : ∀ terms, (∀ term ∈ terms, motive term) → motive (.all terms))
    (any : ∀ terms, (∀ term ∈ terms, motive term) → motive (.any terms))
    (not : ∀ term, motive term → motive (.not term)) : ∀ p, motive p
  | .always => always
  | .compare field op value => compare field op value
  | .all terms => all terms fun term _ => induct always compare all any not term
  | .any terms => any terms fun term _ => induct always compare all any not term
  | .not term => not term (induct always compare all any not term)

variable (r : Record)

/-! ## Groups -/

/-- The reading of a conjunction from the left joins what came before with the group of the rest. -/
theorem truthOfAll_eq (sofar : Truth) (terms : List Predicate) (h : sofar ≠ .no) :
    truthOfAll r sofar terms = Connective.and.join sofar (Connective.and.group (terms.map (truth r))) := by
  -- `sofar` is general, since it changes from term to term
  induction terms generalizing sofar with
  | nil => cases sofar <;> rfl
  | cons term terms ih =>
    rw [truthOfAll, List.map_cons, Connective.group_cons, ← Connective.join_assoc]
    cases truth r term with
    -- a false term ends the evaluation, and it decides the group
    | no => cases sofar <;> rfl
    | unknown =>
      -- the evaluation goes on with what it knows, and it can still become false
      rw [ih .unknown (by decide)]
      cases sofar with
      | no => exact absurd rfl h
      | unknown => rfl
      | yes => rfl
    | yes =>
      rw [ih sofar h]
      cases sofar <;> rfl

/-- The reading of a disjunction from the left joins what came before with the group of the rest. -/
theorem truthOfAny_eq (sofar : Truth) (terms : List Predicate) (h : sofar ≠ .yes) :
    truthOfAny r sofar terms = Connective.or.join sofar (Connective.or.group (terms.map (truth r))) := by
  -- the same with true and false exchanged
  induction terms generalizing sofar with
  | nil => cases sofar <;> rfl
  | cons term terms ih =>
    rw [truthOfAny, List.map_cons, Connective.group_cons, ← Connective.join_assoc]
    cases truth r term with
    | yes => cases sofar <;> rfl
    | unknown =>
      rw [ih .unknown (by decide)]
      cases sofar with
      | yes => exact absurd rfl h
      | unknown => rfl
      | no => rfl
    | no =>
      rw [ih sofar h]
      cases sofar <;> rfl

@[simp]
theorem truth_always : truth r .always = .yes := by
  rw [truth]

@[simp]
theorem truth_compare (field : Field) (op : Comparison) (value : Value) :
    truth r (.compare field op value) = compareTruth r field op value := by
  rw [truth]

@[simp]
theorem truth_all (terms : List Predicate) : truth r (.all terms) = Connective.and.group (terms.map (truth r)) := by
  rw [truth, truthOfAll_eq r .yes terms (by decide)]
  cases Connective.and.group (terms.map (truth r)) <;> rfl

@[simp]
theorem truth_any (terms : List Predicate) : truth r (.any terms) = Connective.or.group (terms.map (truth r)) := by
  rw [truth, truthOfAny_eq r .no terms (by decide)]
  cases Connective.or.group (terms.map (truth r)) <;> rfl

@[simp]
theorem truth_not (term : Predicate) : truth r (.not term) = (truth r term).negate := by
  rw [truth]

/-- A record satisfies a predicate when the predicate is true on it. -/
theorem holds_iff (p : Predicate) : p.holds r = true ↔ truth r p = .yes := by
  rw [holds, beq_iff_eq]

end Roster.Predicate
