import Roster.Proofs.Criteria.Filter
import Roster.Sql.Clause

/-! # What the text of a condition depends on

The outline of a predicate has the same value in all comparisons.  Fields, comparisons and groups are left, and the text
of a condition shows no more than these: the values stand beside the text.

* `Predicate.outline`: a predicate without its values.
* `Sql.shape_clauseFrom_outline`: the condition of a predicate and that of its outline differ in values only.
* `Criteria.outline_filter_congr`: the outline of a filter depends on which parts of the criteria ask for anything.
-/

namespace Roster

/-! ## Outlines -/

namespace Predicate

/-- The value in the comparisons of an outline. -/
def noValue : Value :=
  .int 0

mutual

/-- The predicate with the same value in all comparisons. -/
def outline : Predicate → Predicate
  | .always => .always
  | .compare field op _ => .compare field op noValue
  | .all terms => .all (outlineAll terms)
  | .any terms => .any (outlineAll terms)
  | .not term => .not (outline term)

def outlineAll : List Predicate → List Predicate
  | [] => []
  | term :: terms => outline term :: outlineAll terms

end

theorem outlineAll_eq (terms : List Predicate) : outlineAll terms = terms.map outline := by
  induction terms with
  | nil => rw [outlineAll, List.map_nil]
  | cons term terms ih => rw [outlineAll, List.map_cons, ih]

@[simp]
theorem outline_always : outline .always = .always := by
  rw [outline]

@[simp]
theorem outline_compare (field : Field) (op : Comparison) (value : Value) :
    outline (.compare field op value) = .compare field op noValue := by
  rw [outline]

@[simp]
theorem outline_all (terms : List Predicate) : outline (.all terms) = .all (terms.map outline) := by
  rw [outline, outlineAll_eq]

@[simp]
theorem outline_any (terms : List Predicate) : outline (.any terms) = .any (terms.map outline) := by
  rw [outline, outlineAll_eq]

@[simp]
theorem outline_not (term : Predicate) : outline (.not term) = .not term.outline := by
  rw [outline]

theorem isAlways_outline (p : Predicate) : p.outline.isAlways = p.isAlways := by
  cases p <;> simp [isAlways]

theorem conjuncts_outline (p : Predicate) : p.outline.conjuncts = p.conjuncts.map outline := by
  cases p <;> simp [conjuncts]

theorem ofConjuncts_outline (ps : List Predicate) : (ofConjuncts ps).outline = ofConjuncts (ps.map outline) := by
  match ps with
  | [] => exact outline_always
  | [p] => rfl
  | p :: q :: ps => exact outline_all (p :: q :: ps)

/-- The outline of a conjunction is the conjunction of the outlines. -/
theorem outline_allOf (filters : List (Option Predicate)) :
    (allOf filters).outline = allOf (filters.map (Option.map outline)) := by
  have hpresent : (filters.map (Option.map outline)).filterMap id = (filters.filterMap id).map outline := by
    rw [List.filterMap_map, List.map_filterMap]
    rfl
  rw [allOf, allOf, ofConjuncts_outline, hpresent, List.map_flatMap, List.flatMap_map]
  simp only [conjuncts_outline]

theorem fieldsAfterAll_outline {terms : List Predicate}
    (h : ∀ term ∈ terms, ∀ seen, fieldsAfter seen term.outline = fieldsAfter seen term) (seen : List Field) :
    fieldsAfterAll seen (terms.map outline) = fieldsAfterAll seen terms := by
  induction terms generalizing seen with
  | nil => rfl
  | cons term terms ih =>
    rw [List.forall_mem_cons] at h
    rw [List.map_cons, fieldsAfterAll, fieldsAfterAll, h.1, ih h.2]

theorem fieldsAfter_outline (p : Predicate) (seen : List Field) : fieldsAfter seen p.outline = fieldsAfter seen p := by
  induction p using Predicate.induct generalizing seen with
  | always => rw [outline_always]
  | compare field op value => rw [outline_compare, fieldsAfter, fieldsAfter]
  | all terms ih => rw [outline_all, fieldsAfter, fieldsAfter, fieldsAfterAll_outline ih]
  | any terms ih => rw [outline_any, fieldsAfter, fieldsAfter, fieldsAfterAll_outline ih]
  | not term ih => rw [outline_not, fieldsAfter, fieldsAfter, ih]

/-- An outline has the fields of the predicate. -/
theorem referencesTeam_outline (p : Predicate) : p.outline.referencesTeam = p.referencesTeam := by
  rw [referencesTeam, referencesTeam, fields, fields, fieldsAfter_outline]

end Predicate

/-! ## Conditions -/

namespace Sql

/-- What remains of a clause without its values: the text and the number of values. -/
def Clause.shape (c : Clause) : Sql × Nat :=
  (c.sql, c.params.length)

theorem Clause.shape_group {cs ds : List Clause} (h : cs.map shape = ds.map shape) (empty joiner : String) :
    (group empty joiner cs).shape = (group empty joiner ds).shape := by
  -- groups differ in nothing as soon as their clauses do not
  have htexts : cs.map (fun c => enclosed c.sql) = ds.map fun d => enclosed d.sql := by
    have hmap := congrArg (List.map fun s : Sql × Nat => enclosed s.1) h
    rwa [List.map_map, List.map_map] at hmap
  have hcounts : (cs.flatMap params).length = (ds.flatMap params).length := by
    have hmap := congrArg (List.map fun s : Sql × Nat => s.2) h
    rw [List.map_map, List.map_map] at hmap
    rw [List.length_flatMap, List.length_flatMap]
    exact congrArg List.sum hmap
  cases cs with
  | nil =>
    rw [List.map_nil, eq_comm, List.map_eq_nil_iff] at h
    rw [h]
  | cons c cs =>
    cases ds with
    | nil => cases h
    | cons d ds => exact Prod.ext (congrArg (joinWith joiner) htexts) hcounts

theorem shape_clausesFrom_outline {terms : List Predicate}
    (h : ∀ term ∈ terms, ∀ n, (clauseFrom n term.outline).shape = (clauseFrom n term).shape) (n : Int32) :
    (clausesFrom n (terms.map Predicate.outline)).map Clause.shape = (clausesFrom n terms).map Clause.shape := by
  induction terms generalizing n with
  | nil => rfl
  | cons term terms ih =>
    rw [List.forall_mem_cons] at h
    -- as many values come before the next term
    have hcount : (clauseFrom n term.outline).params.length = (clauseFrom n term).params.length :=
      congrArg Prod.snd (h.1 n)
    have hnext : (clauseFrom n term.outline).next n = (clauseFrom n term).next n := by
      rw [Clause.next, hcount, Clause.next]
    rw [List.map_cons, clausesFrom, clausesFrom, List.map_cons, List.map_cons, h.1, hnext, ih h.2]

/-- The condition of a predicate and that of its outline differ in values only. -/
theorem shape_clauseFrom_outline (p : Predicate) (n : Int32) :
    (clauseFrom n p.outline).shape = (clauseFrom n p).shape := by
  induction p using Predicate.induct generalizing n with
  | always => rw [Predicate.outline_always]
  | compare field op value => rw [Predicate.outline_compare, clauseFrom, clauseFrom]; rfl
  | all terms ih =>
    rw [Predicate.outline_all, clauseFrom, clauseFrom]
    exact Clause.shape_group (shape_clausesFrom_outline ih n) "TRUE" " AND "
  | any terms ih =>
    rw [Predicate.outline_any, clauseFrom, clauseFrom]
    exact Clause.shape_group (shape_clausesFrom_outline ih n) "FALSE" " OR "
  | not term ih =>
    rw [Predicate.outline_not, clauseFrom, clauseFrom]
    exact congrArg (fun s : Sql × Nat => (.text "NOT " :: enclosed s.1, s.2)) (ih n)

end Sql

/-! ## Filters -/

namespace Criteria

/-- The outline of the comparison that a part of the criteria asks for. -/
def Key.outline : Key → Predicate
  | .username => .compare .username .eq Predicate.noValue
  | .teamName => .compare .teamName .eq Predicate.noValue
  | .minAge => .compare .age .ge Predicate.noValue
  | .maxAge => .compare .age .le Predicate.noValue

theorem outline_of_comparison? {c : Criteria} {key : Key} {leaf : Predicate.Leaf}
    (h : c.comparison? key = some leaf) : leaf.predicate.outline = key.outline := by
  cases key with
  -- a part that is asked for makes one comparison, and the outline forgets the value in it
  | username | teamName =>
    obtain ⟨s, -, -, rfl⟩ := textComparison?_eq_some_iff.mp h
    exact Predicate.outline_compare ..
  | minAge | maxAge =>
    obtain ⟨n, -, rfl⟩ := Option.map_eq_some_iff.mp h
    exact Predicate.outline_compare ..

/-- The outline of a part is there if the part asks for anything, and it is the same whatever that is. -/
theorem outline_part (c : Criteria) (key : Key) :
    ((c.comparison? key).map Predicate.Leaf.predicate).map Predicate.outline =
      if (c.comparison? key).isSome then some key.outline else none := by
  cases h : c.comparison? key with
  | none => rfl
  | some leaf => exact congrArg some (outline_of_comparison? h)

/-- Where two criteria ask for the same parts, their filters differ in values only. -/
theorem outline_filter_congr {c d : Criteria} (h : ∀ key, c.Asks key ↔ d.Asks key) :
    c.filter.outline = d.filter.outline := by
  -- the same parts are asked for, so the same filters are present
  have hsome : ∀ key, (c.comparison? key).isSome = (d.comparison? key).isSome := by
    intro key
    rw [Bool.eq_iff_iff, isSome_comparison?, isSome_comparison?]
    exact h key
  rw [filter_eq, filter_eq, Predicate.outline_allOf, Predicate.outline_allOf, List.map_map, List.map_map]
  apply congrArg Predicate.allOf
  apply List.map_congr_left
  intro key _
  change ((c.comparison? key).map _).map _ = ((d.comparison? key).map _).map _
  rw [outline_part, outline_part, hsome key]

end Criteria

end Roster
