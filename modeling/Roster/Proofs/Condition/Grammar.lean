import Roster.Proofs.Truth

/-! # The grammar of conditions

Conditions are written with parentheses, "not", "and", "or" and the two constants around comparisons.  A comparison
binds tighter than "not", "not" tighter than "and", and "and" tighter than "or"; terms of one connective are taken
from the left.  What a comparison looks like is left open: it is any stretch of other tokens that a given relation
reads.

* `Reads`: a list of tokens reads as a formula, at a level of precedence.
* `Reads.unique`: no list of tokens reads as two formulas, if comparisons do not.
* `Formula.truth`: the truth of a formula in three-valued logic.

A formula keeps the parentheses, so that it determines which rules led to it.
-/

namespace Roster.Condition

/-- A token of a condition; `other` stands for what only comparisons consist of. -/
inductive Token (α : Type) where
  | opening
  | closing
  | constant (b : Bool)
  | not
  | connective (k : Connective)
  | other (a : α)
deriving Repr, DecidableEq

/-- A condition that has been read, with comparisons of type `β`. -/
inductive Formula (β : Type) where
  | constant (b : Bool)
  | atom (comparison : β)
  | enclosed (term : Formula β)
  | not (term : Formula β)
  | join (k : Connective) (left right : Formula β)
deriving Repr, DecidableEq

def Formula.truth {β : Type} (value : β → Truth) : Formula β → Truth
  | .constant b => .ofBool b
  | .atom comparison => value comparison
  | .enclosed term => term.truth value
  | .not term => (term.truth value).negate
  | .join k left right => k.join (left.truth value) (right.truth value)

/-- The levels of precedence, from the tightest: what needs no parentheses anywhere, what "not" applies to, and the
terms of each connective joined. -/
inductive Level where
  | primary
  | factor
  | group (k : Connective)
deriving Repr, DecidableEq

/-- The level at which the terms of a connective are read. -/
def operandLevel : Connective → Level
  | .and => .factor
  | .or => .group .and

variable {α β : Type} (Atom : List α → β → Prop)

/-- The tokens read as the formula at the level. -/
inductive Reads : Level → List (Token α) → Formula β → Prop where
  | constant (b : Bool) : Reads .primary [.constant b] (.constant b)
  | atom {us : List α} {b : β} (h : Atom us b) : Reads .primary (us.map .other) (.atom b)
  | enclosed {w : List (Token α)} {e : Formula β} (h : Reads (.group .or) w e) :
      Reads .primary (.opening :: (w ++ [.closing])) (.enclosed e)
  | primary {w : List (Token α)} {e : Formula β} (h : Reads .primary w e) : Reads .factor w e
  | not {w : List (Token α)} {e : Formula β} (h : Reads .factor w e) : Reads .factor (.not :: w) (.not e)
  | operand (k : Connective) {w : List (Token α)} {e : Formula β} (h : Reads (operandLevel k) w e) :
      Reads (.group k) w e
  | join (k : Connective) {u v : List (Token α)} {a b : Formula β} (left : Reads (.group k) u a)
      (right : Reads (operandLevel k) v b) : Reads (.group k) (u ++ .connective k :: v) (.join k a b)

/-- Whatever only comparisons consist of belongs to a comparison, wherever it stands. -/
theorem Reads.exists_atom {Atom : List α → β → Prop} {l : Level} {w : List (Token α)} {e : Formula β}
    (h : Reads Atom l w e) {a : α} (ha : .other a ∈ w) : ∃ us b, Atom us b ∧ a ∈ us := by
  -- only a comparison brings tokens of this kind; every other rule adds a token of its own to those of its parts
  induction h with
  | constant b => cases List.mem_singleton.mp ha
  | atom hatom =>
    rcases List.mem_map.mp ha with ⟨a', ha', heq⟩
    cases heq
    exact ⟨_, _, hatom, ha'⟩
  | enclosed _ ih =>
    rcases List.mem_cons.mp ha with heq | ha
    · cases heq
    · rcases List.mem_append.mp ha with ha | ha
      · exact ih ha
      · cases List.mem_singleton.mp ha
  | primary _ ih => exact ih ha
  | not _ ih =>
    rcases List.mem_cons.mp ha with heq | ha
    · cases heq
    · exact ih ha
  | operand _ _ ih => exact ih ha
  | join _ _ _ ihl ihr =>
    rcases List.mem_append.mp ha with ha | ha
    · exact ihl ha
    · rcases List.mem_cons.mp ha with heq | ha
      · cases heq
      · exact ihr ha

/-! ## Depth -/

/-- How much deeper in parentheses what follows a token is. -/
def Token.rise : Token α → Int
  | .opening => 1
  | .closing => -1
  | .constant _ | .not | .connective _ | .other _ => 0

/-- How many parentheses are open after the tokens. -/
def depth : List (Token α) → Int
  | [] => 0
  | t :: w => t.rise + depth w

@[simp]
theorem depth_nil : depth ([] : List (Token α)) = 0 := rfl

@[simp]
theorem depth_cons (t : Token α) (w : List (Token α)) : depth (t :: w) = t.rise + depth w := rfl

@[simp]
theorem depth_append (u v : List (Token α)) : depth (u ++ v) = depth u + depth v := by
  induction u with
  | nil => simp
  | cons t u ih => rw [List.cons_append, depth_cons, depth_cons, ih, Int.add_assoc]

/-- The tokens close exactly the parentheses that they open, and none before it is open. -/
structure Balanced (w : List (Token α)) : Prop where
  depth_eq : depth w = 0
  depth_nonneg : ∀ u v, w = u ++ v → 0 ≤ depth u

/-- A token outside of parentheses. -/
theorem Balanced.singleton {t : Token α} (h : t.rise = 0) : Balanced [t] := by
  refine ⟨by simp [h], ?_⟩
  intro u v huv
  -- only the empty beginning and the whole token are beginnings of it
  cases u with
  | nil => simp
  | cons s u =>
    obtain ⟨rfl, hu⟩ := List.cons.inj huv
    rw [(List.append_eq_nil_iff.mp hu.symm).1, depth_cons, h]
    simp

theorem Balanced.append {x y : List (Token α)} (hx : Balanced x) (hy : Balanced y) : Balanced (x ++ y) := by
  refine ⟨by rw [depth_append, hx.depth_eq, hy.depth_eq]; rfl, ?_⟩
  intro u v huv
  rcases List.append_eq_append_iff.mp huv with ⟨z, rfl, hz⟩ | ⟨z, hz, rfl⟩
  · -- the first tokens reach into `y`, and all of `x` is closed before them
    have hz' : 0 ≤ depth z := hy.depth_nonneg z v hz
    rw [depth_append, hx.depth_eq]
    omega
  · -- the first tokens end within `x`
    exact hx.depth_nonneg u z hz

theorem Balanced.others (us : List α) : Balanced (us.map Token.other) := by
  induction us with
  | nil =>
    refine ⟨rfl, ?_⟩
    intro u v huv
    rw [(List.append_eq_nil_iff.mp huv.symm).1]
    simp
  | cons a us ih => exact Balanced.append (Balanced.singleton (t := .other a) rfl) ih

/-- Inside the parentheses around balanced tokens at least one parenthesis is open. -/
theorem Balanced.depth_enclosed {w u v : List (Token α)} (h : Balanced w) (hu : w ++ [Token.closing] = u ++ v)
    (hv : v ≠ []) : 0 ≤ depth u := by
  rcases List.append_eq_append_iff.mp hu with ⟨z, rfl, hz⟩ | ⟨z, hz, -⟩
  · -- the rest `v` holds the closing parenthesis, so the first tokens are those of `w`
    have hnil : z = [] := by
      cases z with
      | nil => rfl
      | cons t z => exact absurd (List.append_eq_nil_iff.mp (List.cons.inj hz).2.symm).2 hv
    rw [hnil, List.append_nil]
    exact Int.le_of_eq h.depth_eq.symm
  · exact h.depth_nonneg u z hz

theorem Balanced.enclosed {w : List (Token α)} (h : Balanced w) :
    Balanced (.opening :: (w ++ [.closing])) := by
  have hall : depth (Token.opening :: (w ++ [Token.closing])) = 0 := by
    simp [h.depth_eq, Token.rise]
  refine ⟨hall, ?_⟩
  intro u v huv
  by_cases hv : v = []
  · rw [hv, List.append_nil] at huv
    rw [← huv]
    exact Int.le_of_eq hall.symm
  · cases u with
    | nil => simp
    | cons t u =>
      -- past the opening parenthesis the depth is one more than in the balanced tokens
      obtain ⟨rfl, hu⟩ := List.cons.inj huv
      have hinner : 0 ≤ depth u := h.depth_enclosed hu hv
      rw [depth_cons, Token.rise]
      omega

/-- What can be read is balanced. -/
theorem Reads.balanced {Atom : List α → β → Prop} {l : Level} {w : List (Token α)} {e : Formula β}
    (h : Reads Atom l w e) : Balanced w := by
  induction h with
  | constant b => exact Balanced.singleton rfl
  | atom h => exact Balanced.others _
  -- a parenthesis closes what it opens, and every other rule joins balanced tokens
  | enclosed h ih => exact ih.enclosed
  | primary h ih => exact ih
  | not h ih => exact (Balanced.singleton (t := .not) rfl).append ih
  | operand k h ih => exact ih
  | join k left right ihl ihr =>
    exact ihl.append ((Balanced.singleton (t := .connective k) rfl).append ihr)

/-! ## Connectives outside of parentheses -/

/-- The connective stands outside of all parentheses. -/
def Outside (k : Connective) (w : List (Token α)) : Prop :=
  ∃ u v, w = u ++ .connective k :: v ∧ depth u = 0

/-- The level lets the connective stand outside of parentheses. -/
def Level.Admits : Level → Connective → Prop
  | .primary, _ | .factor, _ => False
  | .group .and, k => k = .and
  | .group .or, _ => True

theorem not_admits_operandLevel (k : Connective) : ¬(operandLevel k).Admits k := by
  cases k with
  | and => exact id
  | or => exact Connective.noConfusion

theorem admits_group_of_operandLevel {k c : Connective} (h : (operandLevel k).Admits c) : (Level.group k).Admits c := by
  cases k with
  | and => exact h.elim
  | or => trivial

theorem admits_group (k : Connective) : (Level.group k).Admits k := by
  cases k with
  | and => rfl
  | or => trivial

theorem Outside.of_cons {k : Connective} {t : Token α} {w : List (Token α)} (ht : t ≠ .connective k)
    (hrise : t.rise = 0) (h : Outside k (t :: w)) : Outside k w := by
  obtain ⟨u, v, huv, hu⟩ := h
  cases u with
  | nil => exact absurd (List.cons.inj huv).1 ht
  | cons s u =>
    obtain ⟨rfl, hw⟩ := List.cons.inj huv
    refine ⟨u, v, hw, ?_⟩
    rw [depth_cons, hrise] at hu
    omega

theorem Outside.of_append {k : Connective} {x y : List (Token α)} (hx : depth x = 0) (h : Outside k (x ++ y)) :
    Outside k x ∨ Outside k y := by
  obtain ⟨u, v, huv, hu⟩ := h
  rcases List.append_eq_append_iff.mp huv with ⟨z, rfl, hz⟩ | ⟨z, rfl, hz⟩
  · -- the connective stands in `y`, after all of `x`, which has no effect on the depth
    right
    refine ⟨z, v, hz, ?_⟩
    rw [depth_append, hx] at hu
    omega
  -- the tokens before the connective are a part of `x`, or all of it
  · cases z with
    | nil =>
      right
      exact ⟨[], v, by simpa using hz.symm, rfl⟩
    | cons t z =>
      obtain ⟨rfl, -⟩ := List.cons.inj hz
      exact Or.inl ⟨u, z, rfl, hu⟩

theorem not_outside_others (k : Connective) (us : List α) : ¬Outside k (us.map Token.other) := by
  rintro ⟨u, v, huv, -⟩
  have hmem : Token.connective k ∈ us.map Token.other := by
    rw [huv]
    simp
  obtain ⟨a, -, ha⟩ := List.mem_map.mp hmem
  cases ha

theorem not_outside_enclosed (k : Connective) {w : List (Token α)} (h : Balanced w) :
    ¬Outside k (Token.opening :: (w ++ [Token.closing])) := by
  rintro ⟨u, v, huv, hu⟩
  cases u with
  | nil => cases (List.cons.inj huv).1
  | cons t u =>
    -- the connective is no parenthesis, so at least the opening one stands before it
    obtain ⟨rfl, hw⟩ := List.cons.inj huv
    have hinner : 0 ≤ depth u := h.depth_enclosed hw (List.cons_ne_nil _ _)
    rw [depth_cons, Token.rise] at hu
    omega

/-- A connective outside of parentheses is one that the level lets stand there. -/
theorem Reads.admits_of_outside {Atom : List α → β → Prop} {l : Level} {w : List (Token α)} {e : Formula β}
    (h : Reads Atom l w e) {k : Connective} (hk : Outside k w) : l.Admits k := by
  -- leaves have no connective outside of parentheses at all; "not" and the single term pass the question on
  induction h with
  | constant b => exact absurd (hk.of_cons (by simp) rfl) (not_outside_others k [])
  | atom h => exact absurd hk (not_outside_others k _)
  | enclosed h ih => exact absurd hk (not_outside_enclosed k h.balanced)
  | primary h ih => exact ih hk
  | not h ih => exact ih (hk.of_cons (by simp) rfl)
  | operand c h ih => exact admits_group_of_operandLevel (ih hk)
  | join c left right ihl ihr =>
    -- left operands may hold the connective of the level, right ones only connectives that bind tighter
    rcases hk.of_append left.balanced.depth_eq with hl | hr
    · exact ihl hl
    · by_cases hck : c = k
      · exact hck ▸ admits_group c
      · exact admits_group_of_operandLevel (ihr (hr.of_cons (by simpa using hck) rfl))

/-- The last connective outside of parentheses cuts the tokens in one place. -/
theorem cut_unique {k : Connective} {u v u' v' : List (Token α)} (hu : depth u = 0) (hu' : depth u' = 0)
    (hv : ¬Outside k v) (hv' : ¬Outside k v') (h : u ++ .connective k :: v = u' ++ .connective k :: v') :
    u = u' ∧ v = v' := by
  -- of two places the later one would stand outside in what follows the earlier one
  rcases List.append_eq_append_iff.mp h with ⟨z, rfl, hz⟩ | ⟨z, rfl, hz⟩
  · cases z with
    -- the same place is read both times
    | nil => exact ⟨by simp, (List.cons.inj hz).2⟩
    | cons t z =>
      obtain ⟨rfl, rfl⟩ := List.cons.inj hz
      -- the second place is later, and what follows the first one has a connective outside
      rw [depth_append, hu, depth_cons] at hu'
      exact absurd ⟨z, v', rfl, by simpa [Token.rise] using hu'⟩ hv
  · cases z with
    | nil => exact ⟨by simp, (List.cons.inj hz).2.symm⟩
    | cons t z =>
      obtain ⟨rfl, rfl⟩ := List.cons.inj hz
      rw [depth_append, hu', depth_cons] at hu
      exact absurd ⟨z, v, rfl, by simpa [Token.rise] using hu⟩ hv'

/-! ## One reading only -/

variable {Atom}

/-- What a primary condition reads as is told by its first token. -/
theorem Reads.primary_inv {w : List (Token α)} {e : Formula β} (h : Reads Atom .primary w e) :
    (∃ b, w = [.constant b] ∧ e = .constant b) ∨
    (∃ us b, w = us.map .other ∧ e = .atom b ∧ Atom us b) ∨
    (∃ v a, w = .opening :: (v ++ [.closing]) ∧ e = .enclosed a ∧ Reads Atom (.group .or) v a) := by
  cases h with
  | constant b => exact Or.inl ⟨b, rfl, rfl⟩
  | atom h => exact Or.inr (Or.inl ⟨_, _, rfl, rfl, h⟩)
  | enclosed h => exact Or.inr (Or.inr ⟨_, _, rfl, rfl, h⟩)

theorem Reads.factor_inv {w : List (Token α)} {e : Formula β} (h : Reads Atom .factor w e) :
    Reads Atom .primary w e ∨ ∃ v a, w = .not :: v ∧ e = .not a ∧ Reads Atom .factor v a := by
  cases h with
  | primary h => exact Or.inl h
  | not h => exact Or.inr ⟨_, _, rfl, rfl, h⟩

theorem Reads.group_inv {k : Connective} {w : List (Token α)} {e : Formula β} (h : Reads Atom (.group k) w e) :
    Reads Atom (operandLevel k) w e ∨
    ∃ u v a b, w = u ++ .connective k :: v ∧ e = .join k a b ∧ Reads Atom (.group k) u a ∧
      Reads Atom (operandLevel k) v b := by
  cases h with
  | operand k h => exact Or.inl h
  | join k left right => exact Or.inr ⟨_, _, _, _, rfl, rfl, left, right⟩

/-- A token of a comparison is no other token. -/
theorem eq_other_of_map {us : List α} {t : Token α} {w : List (Token α)} (h : us.map Token.other = t :: w) :
    ∃ a, t = .other a := by
  cases us with
  | nil => cases h
  | cons a us => exact ⟨a, (List.cons.inj h).1.symm⟩

/-- A primary condition does not begin with "not". -/
theorem Reads.primary_ne_not {w : List (Token α)} {e : Formula β} (h : Reads Atom .primary (.not :: w) e) : False := by
  rcases h.primary_inv with ⟨b, hw, -⟩ | ⟨us, b, hw, -⟩ | ⟨v, a, hw, -⟩
  · cases (List.cons.inj hw).1
  · obtain ⟨a, ha⟩ := eq_other_of_map hw.symm
    cases ha
  · cases (List.cons.inj hw).1

/-- A connective of the level cannot be left out of account: what joins terms is no single term. -/
theorem Reads.operand_ne_join {k : Connective} {u v : List (Token α)} {e : Formula β} (hu : depth u = 0)
    (h : Reads Atom (operandLevel k) (u ++ .connective k :: v) e) : False :=
  not_admits_operandLevel k (h.admits_of_outside ⟨u, v, rfl, hu⟩)

/-- No tokens read as two formulas, if no tokens of comparisons read as two comparisons. -/
theorem Reads.unique (hatom : ∀ us b c, Atom us b → Atom us c → b = c) {l : Level} {w : List (Token α)}
    {e f : Formula β} (he : Reads Atom l w e) (hf : Reads Atom l w f) : e = f := by
  -- the induction is on the first reading; the tokens tell by which rule the second one was found
  induction he generalizing f with
  | constant b =>
    rcases hf.primary_inv with ⟨c, hw, rfl⟩ | ⟨us, c, hw, -⟩ | ⟨v, a, hw, -⟩
    · rw [Token.constant.inj (List.cons.inj hw).1]
    · obtain ⟨a, ha⟩ := eq_other_of_map hw.symm
      cases ha
    · cases (List.cons.inj hw).1
  | @atom us b h =>
    rcases hf.primary_inv with ⟨c, hw, -⟩ | ⟨vs, c, hw, rfl, hc⟩ | ⟨v, a, hw, -⟩
    · obtain ⟨a, ha⟩ := eq_other_of_map hw
      cases ha
    · have hus : us = vs := (List.map_inj_right fun _ _ hxy => Token.other.inj hxy).mp hw
      rw [hatom us b c h (hus ▸ hc)]
    · obtain ⟨a, ha⟩ := eq_other_of_map hw
      cases ha
  | enclosed h ih =>
    rcases hf.primary_inv with ⟨c, hw, -⟩ | ⟨us, c, hw, -⟩ | ⟨v, a, hw, rfl, ha⟩
    · cases (List.cons.inj hw).1
    · obtain ⟨a, ha⟩ := eq_other_of_map hw.symm
      cases ha
    · have hinner := List.append_inj_left' (List.cons.inj hw).2 rfl
      rw [ih (hinner ▸ ha)]
  | primary h ih =>
    rcases hf.factor_inv with hf | ⟨v, a, rfl, -⟩
    · exact ih hf
    · exact h.primary_ne_not.elim
  | not h ih =>
    rcases hf.factor_inv with hf | ⟨v, a, hw, rfl, ha⟩
    · exact hf.primary_ne_not.elim
    · rw [ih ((List.cons.inj hw).2 ▸ ha)]
  | operand k h ih =>
    rcases hf.group_inv with hf | ⟨u, v, a, b, rfl, -, hu, -⟩
    · exact ih hf
    · -- a single term of the connective holds it in parentheses only
      exact (h.operand_ne_join hu.balanced.depth_eq).elim
  | join k left right ihl ihr =>
    rcases hf.group_inv with hf | ⟨u, v, a, b, hw, rfl, ha, hb⟩
    · exact (hf.operand_ne_join left.balanced.depth_eq).elim
    · -- the right operands hold no connective of the level, so both readings cut at the last one
      have hcut := cut_unique left.balanced.depth_eq ha.balanced.depth_eq
        (fun h => not_admits_operandLevel k (right.admits_of_outside h))
        (fun h => not_admits_operandLevel k (hb.admits_of_outside h)) hw
      rw [ihl (hcut.1 ▸ ha), ihr (hcut.2 ▸ hb)]

end Roster.Condition
