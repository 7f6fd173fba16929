import Roster.Proofs.Predicate.Conjunction

/-! # Disjunctions of optional filters

Putting filters together by "or" skips those that are absent, takes groups apart and keeps a single term as it is.
A disjunction without any term left restricts nothing, although a disjunction without terms is false on its own: so
the result has the truth of Kleene's disjunction of the filters that are present as soon as one of them is more than
an empty group.

* `anyOf_of_isEmptyAny`, `truth_anyOf`: the disjunction of optional filters without any term, and with one.
* `truth_disjunction`: both together, with what they mean for two predicates.
-/

namespace Roster.Predicate

def isEmptyAny : Predicate → Bool
  | .any [] => true
  | _ => false

variable (r : Record)

/-! ## Terms -/

/-- What a predicate brings into a disjunction has the truth of the predicate. -/
theorem group_disjuncts (p : Predicate) : Connective.or.group ((disjuncts p).map (truth r)) = truth r p := by
  cases p with
  | any terms => rw [disjuncts, truth_any]
  | always | compare | all | not =>
    simp only [disjuncts, List.map, Connective.group_cons, Connective.group_nil, Connective.join_neutral]

/-- Only an empty group brings nothing into a disjunction. -/
theorem disjuncts_eq_nil_iff (p : Predicate) : disjuncts p = [] ↔ p.isEmptyAny = true := by
  cases p with
  | any terms => cases terms <;> simp [disjuncts, isEmptyAny]
  | always | compare | all | not => simp [disjuncts, isEmptyAny]

/-- No term is left exactly when all predicates are empty groups. -/
theorem flatMap_disjuncts_eq_nil_iff (ps : List Predicate) :
    ps.flatMap disjuncts = [] ↔ ps.all isEmptyAny = true := by
  simp only [List.flatMap_eq_nil_iff, List.all_eq_true, disjuncts_eq_nil_iff]

/-- With a term at all, whether a group is made for the terms or not, the truth is that of the group. -/
theorem truth_ofDisjuncts {ps : List Predicate} (h : ps ≠ []) :
    truth r (ofDisjuncts ps) = Connective.or.group (ps.map (truth r)) := by
  match ps with
  | [] => exact absurd rfl h
  | [p] => rw [ofDisjuncts, List.map, List.map, Connective.group_cons, Connective.group_nil, Connective.join_neutral]
  | p :: q :: ps => exact truth_any r (p :: q :: ps)

/-! ## One disjunction -/

/-- A predicate that restricts nothing decides a disjunction. -/
theorem group_of_always {ps : List Predicate} (h : ps.any isAlways = true) :
    Connective.or.group (ps.map (truth r)) = .yes := by
  obtain ⟨p, hp, halways⟩ := List.any_eq_true.mp h
  -- it is not a group of terms that happens to be true, but the predicate itself
  have hyes : truth r p = .yes := by
    cases p with
    | always => exact truth_always r
    | compare | all | any | not => cases halways
  exact (Connective.group_eq_decisive_iff .or _).mpr (List.mem_map.mpr ⟨p, hp, hyes⟩)

/-- Empty groups only, or no filter at all, restrict nothing. -/
theorem anyOf_of_isEmptyAny {filters : List (Option Predicate)} (h : (present filters).all isEmptyAny = true) :
    anyOf filters = .always := by
  have hnone : (present filters).flatMap disjuncts = [] := (flatMap_disjuncts_eq_nil_iff _).mpr h
  have hanyOf : anyOf filters =
      if (present filters).any isAlways then .always else ofDisjuncts ((present filters).flatMap disjuncts) := rfl
  rw [hanyOf, hnone, ofDisjuncts, ite_self]

/-- Where one of the filters is more than an empty group, their disjunction is Kleene's disjunction of those that are
present. -/
theorem truth_anyOf {filters : List (Option Predicate)} (h : ¬(present filters).all isEmptyAny = true) :
    truth r (anyOf filters) = Connective.or.group ((present filters).map (truth r)) := by
  unfold anyOf
  by_cases halways : (present filters).any isAlways = true
  · rw [if_pos halways, truth_always, group_of_always r halways]
  · -- the terms of all filters stand in one group, which is the group of the groups they come from
    have hne : (present filters).flatMap disjuncts ≠ [] := fun hnil => h ((flatMap_disjuncts_eq_nil_iff _).mp hnil)
    rw [if_neg halways, truth_ofDisjuncts r hne, List.map_flatMap, Connective.group_flatMap]
    simp only [group_disjuncts]

/-- On every record, the disjunction of optional filters has the truth of Kleene's disjunction of those that are
present, unless all of them are empty groups or there are none: then it is the filter that restricts nothing, and true.
So a record satisfies the disjunction of two predicates exactly when it satisfies one of them, or both are empty
groups. -/
theorem truth_disjunction :
    (∀ filters, if (present filters).all isEmptyAny
      then anyOf filters = .always ∧ truth r (anyOf filters) = .yes
      else truth r (anyOf filters) = Truth.disj ((present filters).map (truth r))) ∧
    (∀ p q : Predicate, (p.or q).holds r = (p.holds r || q.holds r || (p.isEmptyAny && q.isEmptyAny))) := by
  constructor
  · intro filters
    split
    case isTrue hempty =>
      have halways := anyOf_of_isEmptyAny hempty
      exact ⟨halways, by rw [halways, truth_always]⟩
    case isFalse hmore => exact truth_anyOf r hmore
  · intro p q
    have hall : (present [some p, some q]).all isEmptyAny = (p.isEmptyAny && q.isEmptyAny) := by
      simp [present]
    -- two filters are present, so the only exception is that both are empty groups
    by_cases hempty : (p.isEmptyAny && q.isEmptyAny) = true
    · have halways : p.or q = .always := anyOf_of_isEmptyAny (hall.trans hempty)
      rw [halways, (holds_iff r .always).mpr (truth_always r), hempty, Bool.or_true]
    · have hor : truth r (p.or q) = Connective.or.join (truth r p) (truth r q) := by
        rw [Predicate.or, truth_anyOf r (hall ▸ hempty)]
        simp [present]
      rw [Bool.eq_false_iff.mpr hempty, Bool.or_false, holds, holds, holds, hor]
      cases truth r p <;> cases truth r q <;> rfl

/-- A lone empty group is false, but the disjunction of it alone and its disjunction with itself let every record
through. -/
theorem anyOf_empty_any_ne_disj :
    let empty := Predicate.any []
    let r := Record.ofList []
    present [some empty] ≠ [] ∧
      truth r (anyOf [some empty]) ≠ Truth.disj ((present [some empty]).map (truth r)) ∧
      (empty.or empty).holds r = true ∧ ¬(empty.holds r = true ∨ empty.holds r = true) := by
  decide

end Roster.Predicate
