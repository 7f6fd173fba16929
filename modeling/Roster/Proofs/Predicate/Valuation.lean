import Mathlib.Data.String.Basic
import Roster.Proofs.Predicate.Truth

/-! # The strong Kleene valuation

The truth of a predicate as a valuation of its tree: a conjunction is the least of the truths of its terms and a
disjunction the greatest, in the order false < unknown < true, and a comparison is decided by the order of the two
values.  Nothing in the valuation depends on where in a group a term stands, so the places at which evaluation stops
early do not show.

* `valuation`: the strong Kleene valuation of a predicate on a record.
* `truth_eq_valuation`: evaluation computes the valuation.
* `Rearranged.truth_eq`: order and repetition of terms do not matter, at any depth.
* `truth_valuation`: both together, with what they mean for the records that satisfy a predicate.
-/

namespace Roster

/-! ## The order of truth values -/

/-- The place of a truth value in the order from false over unknown to true. -/
def Truth.rank : Truth → Nat
  | .no => 0
  | .unknown => 1
  | .yes => 2

theorem Truth.rank_injective : Function.Injective Truth.rank := by
  intro a b h
  cases a <;> cases b <;> first | rfl | cases h

instance : LinearOrder Truth :=
  LinearOrder.lift' Truth.rank Truth.rank_injective

namespace Connective

theorem join_and_eq_min (a b : Truth) : Connective.and.join a b = min a b := by
  cases a <;> cases b <;> rfl

theorem join_or_eq_max (a b : Truth) : Connective.or.join a b = max a b := by
  cases a <;> cases b <;> rfl

/-- A conjunction is the least of its terms, and true without any. -/
theorem group_and_eq_min (ts : List Truth) : Connective.and.group ts = ts.foldr min .yes := by
  induction ts with
  | nil => rfl
  | cons t ts ih => rw [group_cons, ih, join_and_eq_min, List.foldr_cons]

/-- A disjunction is the greatest of its terms, and false without any. -/
theorem group_or_eq_max (ts : List Truth) : Connective.or.group ts = ts.foldr max .no := by
  induction ts with
  | nil => rfl
  | cons t ts ih => rw [group_cons, ih, join_or_eq_max, List.foldr_cons]

end Connective

/-! ## Comparisons -/

/-- What a comparison says of two elements of a linear order. -/
def Comparison.relates {α : Type} [LinearOrder α] : Comparison → α → α → Bool
  | .eq, a, b => a = b
  | .ne, a, b => a ≠ b
  | .gt, a, b => b < a
  | .ge, a, b => b ≤ a
  | .lt, a, b => a < b
  | .le, a, b => a ≤ b

/-- A comparison holds of the way in which two elements are ordered when it relates them. -/
theorem Comparison.holds_compare {α : Type} [LinearOrder α] (op : Comparison) (a b : α) :
    op.holds (compare a b) = op.relates a b := by
  -- the comparison is decided by which of the three it is
  rcases lt_trichotomy a b with h | rfl | h
  · rw [compare_lt_iff_lt.mpr h]
    cases op <;> simp [holds, relates, h, h.ne, h.le, h.not_gt, h.not_ge]
  · rw [compare_eq_iff_eq.mpr rfl]
    cases op <;> simp [holds, relates]
  · rw [compare_gt_iff_gt.mpr h]
    cases op <;> simp [holds, relates, h, h.ne', h.le, h.not_gt, h.not_ge]

namespace Predicate

/-- The valuation of a comparison between what a field holds and a value: integers are ordered by size and texts
character by character; nothing is known of a field that holds nothing or a value of the other kind. -/
def comparisonValuation (op : Comparison) : Option Value → Value → Truth
  | some (.int a), .int b => .ofBool (op.relates a.toInt b.toInt)
  | some (.text s), .text t => .ofBool (op.relates s t)
  | none, _ | some (.int _), .text _ | some (.text _), .int _ => .unknown

variable (r : Record)

theorem compareTruth_eq_valuation (field : Field) (op : Comparison) (value : Value) :
    compareTruth r field op value = comparisonValuation op (r field) value := by
  unfold compareTruth
  -- a value of the other kind and no value at all are both unknown
  cases r field with
  | none => cases value <;> rfl
  | some actual =>
    cases actual with
    | int a =>
      cases value with
      | int b => exact congrArg Truth.ofBool (Comparison.holds_compare op a.toInt b.toInt)
      | text t => rfl
    | text s =>
      cases value with
      | int b => rfl
      | text t => exact congrArg Truth.ofBool (Comparison.holds_compare op s t)

/-! ## Predicates -/

mutual

/-- The strong Kleene valuation of a predicate on a record. -/
def valuation : Predicate → Truth
  | .always => .yes
  | .compare field op value => comparisonValuation op (r field) value
  | .all terms => (valuations terms).foldr min .yes
  | .any terms => (valuations terms).foldr max .no
  | .not term => (valuation term).negate

def valuations : List Predicate → List Truth
  | [] => []
  | term :: terms => valuation term :: valuations terms

end

/-- The valuations of terms are their truths when this is so for each of them. -/
theorem valuations_eq_map {terms : List Predicate} (h : ∀ term ∈ terms, truth r term = valuation r term) :
    valuations r terms = terms.map (truth r) := by
  induction terms with
  | nil => rw [valuations, List.map_nil]
  | cons term terms ih =>
    rw [List.forall_mem_cons] at h
    rw [valuations, List.map_cons, h.1, ih h.2]

/-- Evaluation computes the valuation. -/
theorem truth_eq_valuation (p : Predicate) : truth r p = valuation r p := by
  induction p using induct with
  | always => rw [truth_always, valuation]
  | compare field op value => rw [truth_compare, valuation, compareTruth_eq_valuation]
  | all terms ih => rw [truth_all, valuation, valuations_eq_map r ih, Connective.group_and_eq_min]
  | any terms ih => rw [truth_any, valuation, valuations_eq_map r ih, Connective.group_or_eq_max]
  | not term ih => rw [truth_not, valuation, ih]

/-! ## Order and repetition of terms -/

/-- Two predicates that differ in one group, somewhere in them, whose terms are the same but may stand in another order
and another number of times. -/
inductive Rearranged : Predicate → Predicate → Prop where
  | all {terms others : List Predicate} (h : ∀ p, p ∈ terms ↔ p ∈ others) : Rearranged (.all terms) (.all others)
  | any {terms others : List Predicate} (h : ∀ p, p ∈ terms ↔ p ∈ others) : Rearranged (.any terms) (.any others)
  | insideAll {p q : Predicate} (before after : List Predicate) (h : Rearranged p q) :
      Rearranged (.all (before ++ p :: after)) (.all (before ++ q :: after))
  | insideAny {p q : Predicate} (before after : List Predicate) (h : Rearranged p q) :
      Rearranged (.any (before ++ p :: after)) (.any (before ++ q :: after))
  | insideNot {p q : Predicate} (h : Rearranged p q) : Rearranged (.not p) (.not q)

/-- Order and repetition of terms do not matter, at any depth. -/
theorem Rearranged.truth_eq {p q : Predicate} (h : Rearranged p q) : truth r p = truth r q := by
  have hsame : ∀ (k : Connective) {terms others : List Predicate}, (∀ p, p ∈ terms ↔ p ∈ others) →
      k.group (terms.map (truth r)) = k.group (others.map (truth r)) := by
    intro k terms others hterms
    apply Connective.group_congr
    intro t
    simp only [List.mem_map, hterms]
  -- the induction leads down to the group that is rearranged; above it one term changes, and its truth does not
  induction h with
  | all hterms => rw [truth_all, truth_all, hsame .and hterms]
  | any hterms => rw [truth_any, truth_any, hsame .or hterms]
  | insideAll before after _ ih =>
    simp only [truth_all, List.map_append, List.map_cons, ih]
  | insideAny before after _ ih =>
    simp only [truth_any, List.map_append, List.map_cons, ih]
  | insideNot _ ih => rw [truth_not, truth_not, ih]

/-- The truth of a predicate is its strong Kleene valuation, and order and repetition of the terms of a group, at any
depth, do not matter to it.  So the records that satisfy a predicate are those on which the valuation is true, and no
record satisfies both a predicate and its negation. -/
theorem truth_valuation :
    (∀ p, truth r p = valuation r p) ∧
    (∀ p q, Rearranged p q → truth r p = truth r q) ∧
    (∀ p : Predicate, p.holds r = true ↔ valuation r p = .yes) ∧
    (∀ p : Predicate, ¬(p.holds r = true ∧ (Predicate.not p).holds r = true)) := by
  -- what the terms of a group are is all that counts for it, in whatever order they stand
  refine ⟨truth_eq_valuation r, ?_, ?_, ?_⟩
  · intro p q h
    exact h.truth_eq r
  · intro p
    rw [holds_iff, truth_eq_valuation]
  · rintro p ⟨hp, hnot⟩
    rw [holds_iff] at hp hnot
    rw [truth_not, hp] at hnot
    cases hnot

/-- Terms swapped and repeated in a disjunction inside of a negated conjunction, on a member of age 30 without a team:
the age decides the disjunction, and the team leaves the conjunction open. -/
theorem truth_valuation_nested :
    let team := Predicate.compare .teamName .eq (.text "teamA")
    let age := Predicate.compare .age .ge (.int 18)
    let p := Predicate.not (.all [.any [team, age], team])
    let q := Predicate.not (.all [.any [age, team, age], team])
    let r := Record.ofList [(.age, .int 30)]
    Rearranged p q ∧ truth r p = .unknown ∧ truth r p = truth r q := by
  intro team age p q r
  -- a repeated term adds nothing
  have hterms : ∀ x, x ∈ [team, age] ↔ x ∈ [age, team, age] := by
    intro x
    simp only [List.mem_cons, List.not_mem_nil, or_false]
    constructor
    · rintro (hx | hx)
      · exact Or.inr (Or.inl hx)
      · exact Or.inl hx
    · rintro (hx | hx | hx)
      · exact Or.inr hx
      · exact Or.inl hx
      · exact Or.inr hx
  have hpq : Rearranged p q := Rearranged.insideNot (Rearranged.insideAll [] [team] (Rearranged.any hterms))
  exact ⟨hpq, by decide, (truth_valuation r).2.1 p q hpq⟩

end Predicate

end Roster
