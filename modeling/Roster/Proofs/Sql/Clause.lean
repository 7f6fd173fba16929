import Roster.Proofs.Sql.Condition

/-! # How clauses are put together

The condition of a predicate consists of constants and comparisons, which parentheses, "not" and the connectives put
together.  The slots are counted on from one part to the next.

* `clauseFrom_induct`: what the smallest parts have, and what is kept where parts are put together, every condition has.
* `clauseFrom_induct_of_fits`: the same with integers that have no bounds, for conditions whose slots fit.
* `Counter.write`: a condition that is written from left to right, with a counter for the slots.
* `sql_clauseFrom_add`: another first slot changes the numbers of the slots and nothing else.
-/

namespace Roster.Sql

/-! ## Induction -/

section Induction

variable {motive : Sql → Int32 → List Predicate.Leaf → Prop}
  (constant : ∀ (k : Connective) (n : Int32), motive [.text (emptyGroup k)] n [])
  (comparison : ∀ (leaf : Predicate.Leaf) (n : Int32),
    motive [.column leaf.field, .text (" " ++ leaf.op.symbol ++ " "), .slot n] n [leaf])
  (enclosed : ∀ {sql : Sql} {n : Int32} {leaves : List Predicate.Leaf},
    motive sql n leaves → motive (Sql.enclosed sql) n leaves)
  (not : ∀ {sql : Sql} {n : Int32} {leaves : List Predicate.Leaf},
    motive sql n leaves → motive (.text "NOT " :: sql) n leaves)
  (join : ∀ (k : Connective) {s t : Sql} {n : Int32} {leaves leaves' : List Predicate.Leaf},
    motive s n leaves → motive t (n + .ofNat leaves.length) leaves' →
      motive (s ++ .text (joiner k) :: t) n (leaves ++ leaves'))

include enclosed join

theorem joinWith_induct (k : Connective) (term : Predicate) (terms : List Predicate)
    (h : ∀ term' ∈ term :: terms, ∀ n, motive (clauseFrom n term').sql n term'.leaves) (n : Int32) :
    motive (joinWith (joiner k) ((clausesFrom n (term :: terms)).map fun c => Sql.enclosed c.sql)) n
      ((term :: terms).flatMap Predicate.leaves) := by
  -- the terms that follow the first one are a group of their own, with the slots after those of the first one
  induction terms generalizing term n with
  | nil =>
    rw [List.forall_mem_singleton] at h
    rw [clausesFrom, clausesFrom, List.map_singleton, joinWith, List.flatMap_singleton]
    exact enclosed (h n)
  | cons term' terms ih =>
    rw [List.forall_mem_cons] at h
    have hrest := ih term' h.2 (n + .ofNat term.leaves.length)
    rw [clausesFrom, List.map_cons, next_clauseFrom, List.flatMap_cons, joinWith]
    · exact join k (enclosed (h.1 n)) hrest
    · rw [clausesFrom]
      exact List.cons_ne_nil _ _

include constant

theorem group_induct (k : Connective) {terms : List Predicate}
    (h : ∀ term ∈ terms, ∀ n, motive (clauseFrom n term).sql n term.leaves) (n : Int32) :
    motive (Clause.group (emptyGroup k) (joiner k) (clausesFrom n terms)).sql n (terms.flatMap Predicate.leaves) := by
  cases terms with
  | nil =>
    rw [clausesFrom]
    exact constant k n
  | cons term terms => exact joinWith_induct enclosed join k term terms h n

include comparison not

/-- Induction over the parts of a condition.  A part has a text, the number of its first slot and its comparisons; where
two parts are joined, the slots of the second one follow those of the first one. -/
theorem clauseFrom_induct (p : Predicate) (n : Int32) : motive (clauseFrom n p).sql n p.leaves := by
  induction p using Predicate.induct generalizing n with
  | always =>
    rw [clauseFrom, Predicate.leaves_always]
    exact constant .and n
  | compare field op value =>
    rw [clauseFrom, Predicate.leaves]
    exact comparison ⟨field, op, value⟩ n
  | all terms ih =>
    rw [clauseFrom, Predicate.leaves_all]
    exact group_induct constant enclosed join .and ih n
  | any terms ih =>
    rw [clauseFrom, Predicate.leaves_any]
    exact group_induct constant enclosed join .or ih n
  | not term ih =>
    rw [clauseFrom, Predicate.leaves_not]
    exact not (enclosed (ih n))

end Induction

/-- Induction over the parts of a condition whose slots fit, with exact integers in place of the counter. -/
theorem clauseFrom_induct_of_fits {motive : Sql → Int → List Predicate.Leaf → Prop}
    (constant : ∀ (k : Connective) (n : Int), motive [.text (emptyGroup k)] n [])
    (comparison : ∀ (leaf : Predicate.Leaf) (n : Int32),
      motive [.column leaf.field, .text (" " ++ leaf.op.symbol ++ " "), .slot n] n.toInt [leaf])
    (enclosed : ∀ {sql : Sql} {n : Int} {leaves : List Predicate.Leaf},
      motive sql n leaves → motive (Sql.enclosed sql) n leaves)
    (not : ∀ {sql : Sql} {n : Int} {leaves : List Predicate.Leaf},
      motive sql n leaves → motive (.text "NOT " :: sql) n leaves)
    (join : ∀ (k : Connective) {s t : Sql} {n : Int} {leaves leaves' : List Predicate.Leaf},
      motive s n leaves → motive t (n + leaves.length) leaves' →
        motive (s ++ .text (joiner k) :: t) n (leaves ++ leaves'))
    (p : Predicate) {n : Int32} (hfits : Fits n p.leaves.length) : motive (clauseFrom n p).sql n.toInt p.leaves := by
  revert hfits
  -- the motive carries the bound along, since the induction does not know of it
  refine clauseFrom_induct (motive := fun sql n leaves => Fits n leaves.length → motive sql n.toInt leaves)
    ?constant ?comparison ?enclosed ?not ?join p n
  case constant => exact fun k n _ => constant k n.toInt
  case comparison => exact fun leaf n _ => comparison leaf n
  case enclosed => exact fun h hfits => enclosed (h hfits)
  case not => exact fun h hfits => not (h hfits)
  case join =>
    intro k s t n leaves leaves' hs ht hfits
    rw [List.length_append] at hfits
    -- what fits as a whole fits in its parts, and there the counter says what an integer would
    have hrest := ht hfits.right
    rw [hfits.left.toInt_add] at hrest
    exact join k (hs hfits.left) hrest

/-! ## Writing with a counter -/

/-- Texts with a separator between them, or what stands for no text at all. -/
def groupTexts (empty joiner : String) : List Sql → Sql
  | [] => [.text empty]
  | sqls => joinWith joiner sqls

theorem sql_group (empty joiner : String) (cs : List Clause) :
    (Clause.group empty joiner cs).sql = groupTexts empty joiner (cs.map fun c => enclosed c.sql) := by
  cases cs <;> rfl

/-- The number of the next slot, and the values for the slots so far. -/
structure Counter where
  next : Int32
  values : List Value

namespace Counter

mutual

/-- Writes the condition of a predicate from left to right.  Each comparison takes the next slot and adds its value to
those so far. -/
def write (counter : Counter) : Predicate → Sql × Counter
  | .always => ([.text "TRUE"], counter)
  | .compare field op value =>
    ([.column field, .text (" " ++ op.symbol ++ " "), .slot counter.next],
      ⟨counter.next + 1, counter.values ++ [value]⟩)
  | .all terms =>
    let (sqls, after) := counter.writeAll terms
    (groupTexts "TRUE" " AND " sqls, after)
  | .any terms =>
    let (sqls, after) := counter.writeAll terms
    (groupTexts "FALSE" " OR " sqls, after)
  | .not term =>
    let (sql, after) := counter.write term
    (.text "NOT " :: enclosed sql, after)

/-- Writes the conditions of terms in turn, each in parentheses. -/
def writeAll (counter : Counter) : List Predicate → List Sql × Counter
  | [] => ([], counter)
  | term :: terms =>
    let (sql, after) := counter.write term
    let (sqls, last) := after.writeAll terms
    (enclosed sql :: sqls, last)

end

/-- The counter after the comparisons, which have taken one slot each. -/
def past (counter : Counter) (leaves : List Predicate.Leaf) : Counter :=
  ⟨counter.next + .ofNat leaves.length, counter.values ++ leaves.map (·.value)⟩

theorem past_nil (counter : Counter) : counter.past [] = counter := by
  have hnext : counter.next + .ofNat 0 = counter.next := Int32.add_zero counter.next
  rw [past, List.length_nil, hnext, List.map_nil, List.append_nil]

theorem past_append (counter : Counter) (leaves leaves' : List Predicate.Leaf) :
    (counter.past leaves).past leaves' = counter.past (leaves ++ leaves') := by
  simp only [past, List.length_append, List.map_append, Int32.ofNat_add, Int32.add_assoc, List.append_assoc]

theorem writeAll_eq {terms : List Predicate}
    (h : ∀ term ∈ terms, ∀ counter : Counter,
      counter.write term = ((clauseFrom counter.next term).sql, counter.past term.leaves)) (counter : Counter) :
    counter.writeAll terms =
      ((clausesFrom counter.next terms).map (fun c => enclosed c.sql), counter.past (terms.flatMap Predicate.leaves)) := by
  -- the counter is general, since it moves on from term to term
  induction terms generalizing counter with
  | nil => rw [writeAll, clausesFrom, List.map_nil, List.flatMap_nil, past_nil]
  | cons term terms ih =>
    rw [List.forall_mem_cons] at h
    rw [clausesFrom, next_clauseFrom]
    simp only [writeAll, h.1, ih h.2, past_append]
    rfl

/-- What is written from left to right is the condition from the next slot on, and the counter has gone on past its
comparisons. -/
theorem write_eq (counter : Counter) (p : Predicate) :
    counter.write p = ((clauseFrom counter.next p).sql, counter.past p.leaves) := by
  induction p using Predicate.induct generalizing counter with
  | always => rw [write, clauseFrom, Predicate.leaves_always, past_nil]
  | compare field op value =>
    rw [write, clauseFrom, Predicate.leaves]
    rfl
  | all terms ih => rw [write, writeAll_eq ih, clauseFrom, sql_group, Predicate.leaves_all]
  | any terms ih => rw [write, writeAll_eq ih, clauseFrom, sql_group, Predicate.leaves_any]
  | not term ih => rw [write, ih, clauseFrom, Predicate.leaves_not]

end Counter

/-! ## Another first slot -/

/-- The part with another number, if it is a slot. -/
def Piece.shift (d : Int32) : Piece → Piece
  | .slot n => .slot (n + d)
  | .text words => .text words
  | .quoted name => .quoted name
  | .column field => .column field

theorem shift_groupTexts (d : Int32) (empty joiner : String) (sqls : List Sql) :
    (groupTexts empty joiner sqls).map (Piece.shift d) = groupTexts empty joiner (sqls.map (List.map (Piece.shift d))) := by
  cases sqls with
  | nil => rfl
  | cons sql sqls =>
    -- the first text has no separator before it, and each of the others has one
    show (joinWith joiner (sql :: sqls)).map (Piece.shift d) = joinWith joiner (_ :: _)
    rw [joinWith_cons, joinWith_cons, List.map_append, List.map_flatMap, List.flatMap_map]
    rfl

theorem shift_enclosed (d : Int32) (sql : Sql) :
    (enclosed sql).map (Piece.shift d) = enclosed (sql.map (Piece.shift d)) := by
  rw [enclosed, enclosed, List.map_append, List.map_cons]
  rfl

/-- The same condition from another slot on. -/
theorem sql_clauseFrom_add (p : Predicate) (n d : Int32) :
    (clauseFrom (n + d) p).sql = (clauseFrom n p).sql.map (Piece.shift d) := by
  -- terms come one after the other, so the slots of each are moved by the same distance
  have hclauses : ∀ {terms : List Predicate},
      (∀ term ∈ terms, ∀ n, (clauseFrom (n + d) term).sql = (clauseFrom n term).sql.map (Piece.shift d)) → ∀ n,
      (clausesFrom (n + d) terms).map (fun c => enclosed c.sql) =
        ((clausesFrom n terms).map fun c => enclosed c.sql).map (List.map (Piece.shift d)) := by
    intro terms h
    induction terms with
    | nil =>
      intro n
      rw [clausesFrom, clausesFrom]
      rfl
    | cons term terms ih =>
      intro n
      rw [List.forall_mem_cons] at h
      have hnext : (clauseFrom (n + d) term).next (n + d) = (clauseFrom n term).next n + d := by
        rw [next_clauseFrom, next_clauseFrom, Int32.add_assoc, Int32.add_assoc, Int32.add_comm d]
      rw [clausesFrom, clausesFrom, hnext, List.map_cons, List.map_cons, List.map_cons,
        ih h.2, h.1, shift_enclosed]
  induction p using Predicate.induct generalizing n with
  | always =>
    rw [clauseFrom, clauseFrom]
    rfl
  | compare field op value =>
    rw [clauseFrom, clauseFrom]
    rfl
  | all terms ih =>
    rw [clauseFrom, clauseFrom, sql_group, sql_group, shift_groupTexts, hclauses ih]
  | any terms ih =>
    rw [clauseFrom, clauseFrom, sql_group, sql_group, shift_groupTexts, hclauses ih]
  | not term ih =>
    rw [clauseFrom, clauseFrom]
    simp only [ih n, List.map_cons, shift_enclosed]
    rfl

end Roster.Sql
