import Roster.Truth

/-! # Kleene's three-valued logic

The connectives "and" and "or" on truth values, for two terms and for groups of any size.  Each connective has a
value that decides a group as soon as one term has it: false for "and", true for "or".

* `Connective.group_cons`: a group is its first term joined with the group of the others.
* `Connective.group_perm`: the order of the terms does not matter.
* `Connective.group_flatMap`: terms may be gathered into groups of the same connective first.
-/

namespace Roster

/-- The connectives that join conditions. -/
inductive Connective where
  | and
  | or
deriving Repr, DecidableEq

namespace Connective

/-- The value that decides a group as soon as one term has it. -/
def decisive : Connective → Truth
  | .and => .no
  | .or => .yes

/-- The truth table for two terms. -/
def join : Connective → Truth → Truth → Truth
  | .and, .no, _ | .and, _, .no => .no
  | .and, .yes, .yes => .yes
  | .and, _, _ => .unknown
  | .or, .yes, _ | .or, _, .yes => .yes
  | .or, .no, .no => .no
  | .or, _, _ => .unknown

/-- The truth of a group: decided if some term decides it, else unknown if some term is unknown, else the opposite
of the deciding value. -/
def group (k : Connective) (ts : List Truth) : Truth :=
  if k.decisive ∈ ts then k.decisive
  else if .unknown ∈ ts then .unknown
  else k.decisive.negate

variable (k : Connective)

/-! ## Two terms -/

theorem join_comm (a b : Truth) : k.join a b = k.join b a := by
  cases k <;> cases a <;> cases b <;> rfl

theorem join_assoc (a b c : Truth) : k.join (k.join a b) c = k.join a (k.join b c) := by
  cases k <;> cases a <;> cases b <;> cases c <;> rfl

/-- The value of an empty group changes nothing. -/
@[simp]
theorem join_neutral (a : Truth) : k.join a k.decisive.negate = a := by
  cases k <;> cases a <;> rfl

/-! ## Groups -/

@[simp]
theorem group_nil : k.group [] = k.decisive.negate := by
  simp [group]

@[simp]
theorem group_cons (t : Truth) (ts : List Truth) : k.group (t :: ts) = k.join t (k.group ts) := by
  simp only [group, List.mem_cons]
  by_cases hd : k.decisive ∈ ts <;> by_cases hu : Truth.unknown ∈ ts <;> cases k <;> cases t <;>
    simp_all [decisive, join, Truth.negate]

theorem group_append (ts us : List Truth) : k.group (ts ++ us) = k.join (k.group ts) (k.group us) := by
  induction ts with
  | nil => rw [List.nil_append, group_nil, join_comm, join_neutral]
  | cons t ts ih => rw [List.cons_append, group_cons, group_cons, ih, join_assoc]

/-- Only which values occur among the terms matters, not their order and not how often they occur. -/
theorem group_congr {ts us : List Truth} (h : ∀ t, t ∈ ts ↔ t ∈ us) : k.group ts = k.group us := by
  simp only [group, h]

/-- The order of the terms does not matter. -/
theorem group_perm {ts us : List Truth} (h : ts.Perm us) : k.group ts = k.group us :=
  k.group_congr fun _ => h.mem_iff

/-- Terms may be gathered into groups of the same connective first. -/
theorem group_flatMap {α : Type} (f : α → List Truth) (xs : List α) :
    k.group (xs.flatMap f) = k.group (xs.map fun x => k.group (f x)) := by
  induction xs with
  | nil => rfl
  | cons x xs ih => rw [List.flatMap_cons, group_append, ih, List.map_cons, group_cons]

/-- A group has the deciding value exactly when some term has it. -/
theorem group_eq_decisive_iff (ts : List Truth) : k.group ts = k.decisive ↔ k.decisive ∈ ts := by
  by_cases hd : k.decisive ∈ ts
  · simp [group, hd]
  · -- no term decides the group, and its value is unknown or the opposite one
    have hne : k.group ts ≠ k.decisive := by
      rw [group, if_neg hd]
      split <;> cases k <;> simp [decisive, Truth.negate]
    exact ⟨fun h => absurd h hne, fun h => absurd h hd⟩

/-- A group has the opposite of the deciding value exactly when all terms have it. -/
theorem group_eq_neutral_iff (ts : List Truth) :
    k.group ts = k.decisive.negate ↔ ∀ t ∈ ts, t = k.decisive.negate := by
  -- a join has the neutral value only if both sides have it
  have hjoin : ∀ a b, k.join a b = k.decisive.negate ↔ a = k.decisive.negate ∧ b = k.decisive.negate := by
    intro a b
    cases k <;> cases a <;> cases b <;> decide
  induction ts with
  | nil => simp
  | cons t ts ih =>
    rw [group_cons, hjoin, List.forall_mem_cons]
    exact and_congr_right fun _ => ih

end Connective

/-- Kleene's conjunction of any number of truth values. -/
abbrev Truth.conj (ts : List Truth) : Truth :=
  Connective.and.group ts

/-- Kleene's disjunction of any number of truth values. -/
abbrev Truth.disj (ts : List Truth) : Truth :=
  Connective.or.group ts

end Roster
