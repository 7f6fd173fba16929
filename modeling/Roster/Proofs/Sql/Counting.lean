import Roster.Proofs.Predicate.Leaves
import Roster.Sql.Clause

/-! # The numbers of slots

A condition has one slot and one value for each of its comparisons.  The counter for the slots has 32 bits: as long as it
does not pass the greatest number, it counts as integers do, and beyond that it starts over from the least one.

* `params_clauseFrom`: the values of a condition are those of its comparisons.
* `Fits`: the counter does not pass the greatest number.
* `Fits.toInt_add`, `Fits.left`, `Fits.right`: what the counter says as long as it does not, in one part after the other.
-/

namespace Roster.Sql

/-! ## Values -/

theorem params_group (empty joiner : String) (cs : List Clause) :
    (Clause.group empty joiner cs).params = cs.flatMap Clause.params := by
  cases cs <;> rfl

/-- A condition has the values of its comparisons. -/
theorem params_clauseFrom (p : Predicate) (n : Int32) : (clauseFrom n p).params = p.leaves.map (·.value) := by
  -- the values of terms in turn follow each other, whatever the number at which each of them begins
  have hclauses : ∀ {terms : List Predicate},
      (∀ term ∈ terms, ∀ m : Int32, (clauseFrom m term).params = term.leaves.map (·.value)) →
      ∀ m : Int32, (clausesFrom m terms).flatMap Clause.params = (terms.flatMap Predicate.leaves).map (·.value) := by
    intro terms h
    induction terms with
    | nil =>
      intro m
      rw [clausesFrom]
      rfl
    | cons term terms ih =>
      intro m
      rw [List.forall_mem_cons] at h
      rw [clausesFrom, List.flatMap_cons, List.flatMap_cons, List.map_append, h.1, ih h.2]
  induction p using Predicate.induct generalizing n with
  | always =>
    rw [clauseFrom, Predicate.leaves]
    rfl
  | compare field op value =>
    rw [clauseFrom, Predicate.leaves]
    rfl
  | all terms ih => rw [clauseFrom, params_group, hclauses ih, Predicate.leaves_all]
  | any terms ih => rw [clauseFrom, params_group, hclauses ih, Predicate.leaves_any]
  | not term ih =>
    rw [clauseFrom, Predicate.leaves_not]
    exact ih n

theorem length_params_clauseFrom (p : Predicate) (n : Int32) : (clauseFrom n p).params.length = p.leaves.length := by
  rw [params_clauseFrom, List.length_map]

/-- The slot that follows a condition is as far from its first one as it has comparisons. -/
theorem next_clauseFrom (p : Predicate) (n : Int32) : (clauseFrom n p).next n = n + .ofNat p.leaves.length := by
  rw [Clause.next, length_params_clauseFrom]

/-! ## The counter -/

/-- From `n` on there are as many numbers as the slots and the place behind them take. -/
def Fits (n : Int32) (slots : Nat) : Prop :=
  n.toInt + slots ≤ Int32.maxValue.toInt

instance (n : Int32) (slots : Nat) : Decidable (Fits n slots) :=
  inferInstanceAs (Decidable (n.toInt + slots ≤ Int32.maxValue.toInt))

namespace Fits

variable {n : Int32} {k m : Nat}

theorem mono (h : Fits n k) (hle : m ≤ k) : Fits n m := by
  unfold Fits at h ⊢
  omega

/-- As long as the counter does not pass the greatest number, it counts as integers do. -/
theorem toInt_add (h : Fits n k) : (n + .ofNat k).toInt = n.toInt + k := by
  have hlower := n.le_toInt
  have hsize : (Int32.size : Int) = 2 ^ 32 := rfl
  unfold Fits at h
  rw [Int32.toInt_maxValue] at h
  -- the sum is taken modulo the size of the counter, which has no effect within the bounds
  rw [Int32.toInt_add, Int32.toInt_ofNat', Int.add_bmod_bmod, Int.bmod_eq_of_le]
  · omega
  · omega

/-- The first slots fit. -/
theorem left (h : Fits n (k + m)) : Fits n k :=
  h.mono (Nat.le_add_right k m)

/-- The slots behind the first ones fit, too. -/
theorem right (h : Fits n (k + m)) : Fits (n + .ofNat k) m := by
  have hnext := h.left.toInt_add
  unfold Fits at h ⊢
  omega

end Fits

/-- The slots behind a condition, as long as they fit. -/
theorem Clause.toInt_next (c : Clause) {n : Int32} {k : Nat} (h : Fits n (c.params.length + k)) :
    (c.next n + .ofNat k).toInt = n.toInt + c.params.length + k := by
  rw [Clause.next, h.right.toInt_add, h.left.toInt_add]

/-- A number that is not negative is written in digits alone. -/
theorem Piece.render_slot {n : Int32} (hn : 0 ≤ n.toInt) : (Piece.slot n).render = "$" ++ n.toInt.toNat.repr := by
  rcases Int.eq_ofNat_of_zero_le hn with ⟨m, hm⟩
  show "$" ++ toString n.toInt = _
  rw [hm]
  rfl

end Roster.Sql
