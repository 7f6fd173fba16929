import Roster.Proofs.Predicate.Truth

/-! # Conjunctions of optional filters

Putting filters together by "and" skips those that are absent or restrict nothing, takes groups apart and keeps a
single term as it is.  On every record the result has the truth of Kleene's conjunction of the filters that are
present, so their order and the way in which they are nested do not matter.

* `truth_allOf`: the truth of a conjunction of optional filters.
* `Grouping.truth_predicate`: the truth of conjunctions nested at will.
* `truth_conjunction`: both together, with the invariance under order and nesting.
-/

namespace Roster.Predicate

abbrev present (filters : List (Option Predicate)) : List Predicate :=
  filters.filterMap id

theorem present_append (fs gs : List (Option Predicate)) : present (fs ++ gs) = present fs ++ present gs :=
  List.filterMap_append

variable (r : Record)

/-! ## One conjunction -/

/-- What a predicate brings into a conjunction has the truth of the predicate. -/
theorem group_conjuncts (p : Predicate) : Connective.and.group ((conjuncts p).map (truth r)) = truth r p := by
  cases p with
  | always => simp [conjuncts, Connective.decisive, Truth.negate]
  | all terms => simp [conjuncts]
  | compare | any | not =>
    simp only [conjuncts, List.map, Connective.group_cons, Connective.group_nil, Connective.join_neutral]

/-- Whether a group is made for the terms or not, the truth is that of the group. -/
theorem truth_ofConjuncts (ps : List Predicate) :
    truth r (ofConjuncts ps) = Connective.and.group (ps.map (truth r)) := by
  match ps with
  | [] => rw [ofConjuncts, truth_always]; rfl
  | [p] => rw [ofConjuncts, List.map, List.map, Connective.group_cons, Connective.group_nil, Connective.join_neutral]
  | p :: q :: ps => exact truth_all r (p :: q :: ps)

/-- The conjunction of optional filters is Kleene's conjunction of those that are present. -/
theorem truth_allOf (filters : List (Option Predicate)) :
    truth r (allOf filters) = Connective.and.group ((present filters).map (truth r)) := by
  rw [allOf, truth_ofConjuncts, List.map_flatMap, Connective.group_flatMap]
  simp only [group_conjuncts]

/-- A record satisfies the conjunction of optional filters when it satisfies those that are present. -/
theorem holds_allOf_iff (filters : List (Option Predicate)) :
    (allOf filters).holds r = true ↔ ∀ p, some p ∈ filters → p.holds r = true := by
  have hgroup := Connective.and.group_eq_neutral_iff ((present filters).map (truth r))
  rw [holds_iff, truth_allOf]
  refine hgroup.trans ?_
  simp only [List.forall_mem_map, List.mem_filterMap, id, exists_eq_right, holds_iff]
  rfl

/-- The conjunction of two predicates is Kleene's conjunction. -/
theorem truth_and (p q : Predicate) : truth r (p.and q) = Connective.and.join (truth r p) (truth r q) := by
  rw [Predicate.and, truth_allOf]
  simp [present]

/-! ## Nested conjunctions -/

/-- A way to put filters together by conjunctions: a predicate as it is, the conjunction of a list of parts of which
some may be absent, or the conjunction of two. -/
inductive Grouping where
  | filter (p : Predicate)
  | allOf (parts : List (Option Grouping))
  | and (left right : Grouping)

namespace Grouping

mutual

/-- The predicate that the calls in the grouping build. -/
def predicate : Grouping → Predicate
  | .filter p => p
  | .allOf parts => Predicate.allOf (predicates parts)
  | .and left right => (predicate left).and (predicate right)

def predicates : List (Option Grouping) → List (Option Predicate)
  | [] => []
  | none :: parts => none :: predicates parts
  | some part :: parts => some (predicate part) :: predicates parts

end

mutual

/-- The filters that the grouping puts together, the absent ones among them. -/
def filters : Grouping → List (Option Predicate)
  | .filter p => [some p]
  | .allOf parts => filtersOfAll parts
  | .and left right => filters left ++ filters right

def filtersOfAll : List (Option Grouping) → List (Option Predicate)
  | [] => []
  | none :: parts => none :: filtersOfAll parts
  | some part :: parts => filters part ++ filtersOfAll parts

end

mutual

/-- Nested conjunctions have the truth of Kleene's conjunction of all filters in them. -/
theorem truth_predicate : ∀ g : Grouping,
    truth r g.predicate = Connective.and.group ((present g.filters).map (truth r))
  | .filter p => by simp [predicate, filters]
  | .allOf parts => by
    rw [predicate, filters, truth_allOf]
    exact group_predicates parts
  | .and left right => by
    rw [predicate, filters, truth_and, present_append, List.map_append, Connective.group_append, truth_predicate left,
      truth_predicate right]

/-- Parts that are nested conjunctions themselves may be replaced by their filters. -/
theorem group_predicates : ∀ parts : List (Option Grouping),
    Connective.and.group ((present (predicates parts)).map (truth r)) =
      Connective.and.group ((present (filtersOfAll parts)).map (truth r))
  | [] => by rw [predicates, filtersOfAll]
  | none :: parts => by
    rw [predicates, filtersOfAll]
    exact group_predicates parts
  | some part :: parts => by
    have hfirst : present (some part.predicate :: predicates parts) = part.predicate :: present (predicates parts) :=
      rfl
    rw [predicates, filtersOfAll, hfirst, List.map_cons, Connective.group_cons, present_append, List.map_append,
      Connective.group_append, truth_predicate part, group_predicates parts]

end

end Grouping

/-! ## Order and nesting -/

/-- On every record, the conjunction of optional filters has the truth of Kleene's conjunction of those that are
present; so neither the order of the filters nor their nesting into further conjunctions changes the truth. -/
theorem truth_conjunction :
    (∀ filters, truth r (allOf filters) = Truth.conj ((present filters).map (truth r))) ∧
    (∀ filters reordered : List (Option Predicate), filters.Perm reordered →
      truth r (allOf filters) = truth r (allOf reordered)) ∧
    (∀ (g : Grouping) (filters : List (Option Predicate)), g.filters.Perm filters →
      truth r g.predicate = truth r (allOf filters)) := by
  -- Kleene's conjunction does not depend on the order of its terms
  have hperm : ∀ {fs gs : List (Option Predicate)}, fs.Perm gs →
      Connective.and.group ((present fs).map (truth r)) = Connective.and.group ((present gs).map (truth r)) := by
    intro fs gs h
    exact Connective.group_perm _ ((h.filterMap id).map (truth r))
  refine ⟨truth_allOf r, ?_, ?_⟩
  · intro filters reordered h
    rw [truth_allOf, truth_allOf, hperm h]
  -- a grouping has the truth of all its filters in one conjunction
  · intro g filters h
    rw [Grouping.truth_predicate, truth_allOf, hperm h]

/-- A filter on the team and one on the age, nested and with an absent filter between them, on a member of age 30
without a team. -/
theorem truth_conjunction_nested :
    let team := Predicate.compare .teamName .eq (.text "teamA")
    let age := Predicate.compare .age .ge (.int 18)
    let g := Grouping.and (.filter team) (.allOf [none, some (.filter age)])
    let r := Record.ofList [(.age, .int 30)]
    g.filters.Perm [some age, some team, none] ∧ truth r g.predicate = truth r (allOf [some age, some team, none]) := by
  intro team age g r
  have hperm : g.filters.Perm [some age, some team, none] :=
    ((List.Perm.swap (some age) none []).cons (some team)).trans (List.Perm.swap (some age) (some team) [none])
  exact ⟨hperm, (truth_conjunction r).2.2 g _ hperm⟩

end Roster.Predicate
