import Mathlib.Data.List.Basic
import Roster.Criteria.Basic
import Roster.Proofs.Predicate.Conjunction

/-! # The normal form of predicates

What the operations on predicates build from comparisons never holds a group that could have been avoided: a group
with fewer than two terms, a group directly inside one of the same connective, or a group with a term that restricts
nothing.  Each operation takes only the outermost groups of its arguments apart, so the normal form has to hold at
every depth of the arguments for it to hold at every depth of the result.

* `Built`: the predicates that the operations build.
* `IsNormal`: every group in a predicate, at any depth, is tidy.
* `isNormal_ofParts`, `IsNormal.parts`: what the two steps of an operation do to the normal form.
* `built_normal`: the operations build exactly the predicates in normal form.
-/

namespace Roster.Predicate

/-! ## Building predicates -/

/-- The predicates that are built from comparisons by the operations on predicates. -/
inductive Built : Predicate → Prop where
  | always : Built .always
  | compare (field : Field) (op : Comparison) (value : Value) : Built (.compare field op value)
  | allOf {filters : List (Option Predicate)} (h : ∀ p, some p ∈ filters → Built p) : Built (Predicate.allOf filters)
  | anyOf {filters : List (Option Predicate)} (h : ∀ p, some p ∈ filters → Built p) : Built (Predicate.anyOf filters)
  | and {p q : Predicate} (hp : Built p) (hq : Built q) : Built (p.and q)
  | or {p q : Predicate} (hp : Built p) (hq : Built q) : Built (p.or q)
  | not {p : Predicate} (hp : Built p) : Built (.not p)

/-! ## Tidy groups -/

/-- Whether the predicate may be a term in a group of the connective: it restricts something, and it is no such group
itself. -/
def fits (k : Connective) : Predicate → Bool
  | .always => false
  | .all _ => k != .and
  | .any _ => k != .or
  | .compare .. | .not _ => true

/-- A group has at least two terms, and each of them fits in it. -/
def isTidy : Predicate → Bool
  | .all terms => 2 ≤ terms.length && terms.all (fits .and)
  | .any terms => 2 ≤ terms.length && terms.all (fits .or)
  | .always | .compare .. | .not _ => true

mutual

/-- The predicate itself and all terms in it, at any depth. -/
def subterms : Predicate → List Predicate
  | .always => [.always]
  | .compare field op value => [.compare field op value]
  | .all terms => .all terms :: subtermsOfAll terms
  | .any terms => .any terms :: subtermsOfAll terms
  | .not term => .not term :: subterms term

def subtermsOfAll : List Predicate → List Predicate
  | [] => []
  | term :: terms => subterms term ++ subtermsOfAll terms

end

/-- Every group in the predicate is tidy, at any depth. -/
abbrev IsNormal (p : Predicate) : Prop :=
  ∀ q ∈ p.subterms, q.isTidy = true

theorem mem_subtermsOfAll {q : Predicate} {terms : List Predicate} :
    q ∈ subtermsOfAll terms ↔ ∃ term ∈ terms, q ∈ term.subterms := by
  induction terms with
  | nil => simp [subtermsOfAll]
  | cons term terms ih => simp [subtermsOfAll, ih]

/-! ## Groups of either connective -/

def group : Connective → List Predicate → Predicate
  | .and => .all
  | .or => .any

/-- The terms that a predicate brings into a group of the connective. -/
def parts : Connective → Predicate → List Predicate
  | .and => conjuncts
  | .or => disjuncts

/-- The predicate of terms joined by the connective. -/
def ofParts : Connective → List Predicate → Predicate
  | .and => ofConjuncts
  | .or => ofDisjuncts

variable (k : Connective)

@[simp]
theorem ofParts_nil : ofParts k [] = .always := by
  cases k <;> rfl

@[simp]
theorem ofParts_singleton (p : Predicate) : ofParts k [p] = p := by
  cases k <;> rfl

/-- A group is made for two terms or more. -/
theorem ofParts_of_two_le {ps : List Predicate} (h : 2 ≤ ps.length) : ofParts k ps = group k ps := by
  match ps, h with
  | p :: q :: ps, _ => cases k <;> rfl

@[simp]
theorem parts_group (ps : List Predicate) : parts k (group k ps) = ps := by
  cases k <;> rfl

/-- A predicate that fits in a group is a term of it as it is. -/
theorem parts_of_fits {p : Predicate} (h : p.fits k = true) : parts k p = [p] := by
  cases k <;> cases p <;> first | rfl | cases h

theorem group_isTidy_iff (ps : List Predicate) :
    (group k ps).isTidy = true ↔ 2 ≤ ps.length ∧ ∀ p ∈ ps, p.fits k = true := by
  cases k <;> simp [group, isTidy]

/-- A group is in normal form when it is tidy and its terms are in normal form. -/
theorem isNormal_group_iff (ps : List Predicate) :
    (group k ps).IsNormal ↔ 2 ≤ ps.length ∧ (∀ p ∈ ps, p.fits k = true) ∧ ∀ p ∈ ps, p.IsNormal := by
  have hsubterms : (group k ps).subterms = group k ps :: subtermsOfAll ps := by
    cases k <;> rw [group, subterms]
  rw [IsNormal, hsubterms, List.forall_mem_cons, group_isTidy_iff, and_assoc]
  -- what is left is that the subterms of all terms are tidy, which is the same for each term
  refine and_congr_right fun _ => and_congr_right fun _ => ?_
  constructor
  · intro h p hp q hq
    exact h q (mem_subtermsOfAll.mpr ⟨p, hp, hq⟩)
  · intro h q hq
    obtain ⟨p, hp, hq⟩ := mem_subtermsOfAll.mp hq
    exact h p hp q hq

theorem isNormal_always : IsNormal .always := by
  simp [IsNormal, subterms, isTidy]

theorem isNormal_compare (field : Field) (op : Comparison) (value : Value) :
    IsNormal (.compare field op value) := by
  simp [IsNormal, subterms, isTidy]

theorem isNormal_not_iff (p : Predicate) : IsNormal (.not p) ↔ p.IsNormal := by
  simp [IsNormal, subterms, isTidy]

/-! ## The steps of an operation -/

/-- To a connective, a predicate restricts nothing, is a group of the connective, or fits in one. -/
theorem always_or_group_or_fits (p : Predicate) :
    p = .always ∨ (∃ ps, p = group k ps) ∨ p.fits k = true := by
  -- the group of a connective never fits in its own kind, and that of the other one does
  cases p with
  | always => exact Or.inl rfl
  | compare | not => exact Or.inr (Or.inr rfl)
  | all terms =>
    cases k with
    | and => exact Or.inr (Or.inl ⟨terms, rfl⟩)
    | or => exact Or.inr (Or.inr rfl)
  | any terms =>
    cases k with
    | and => exact Or.inr (Or.inr rfl)
    | or => exact Or.inr (Or.inl ⟨terms, rfl⟩)

/-- What a predicate in normal form brings into a group fits there and is in normal form again; only in a disjunction
the predicate that restricts nothing stays what it is. -/
theorem IsNormal.parts {p : Predicate} (hp : p.IsNormal) (hk : k = .and ∨ p.isAlways = false) :
    (∀ q ∈ p.parts k, q.fits k = true) ∧ ∀ q ∈ p.parts k, q.IsNormal := by
  rcases always_or_group_or_fits k p with rfl | ⟨ps, rfl⟩ | hfits
  · -- a conjunction drops it
    rcases hk with rfl | hk
    · simp [Predicate.parts, conjuncts]
    · cases hk
  · -- its terms are brought in, and they fit, because they were terms of such a group before
    obtain ⟨-, hfit, hnormal⟩ := (isNormal_group_iff k ps).mp hp
    rw [parts_group]
    exact ⟨hfit, hnormal⟩
  · -- it brings in itself
    rw [parts_of_fits k hfits, List.forall_mem_singleton, List.forall_mem_singleton]
    exact ⟨hfits, hp⟩

/-- Terms that fit in a group and are in normal form make a predicate in normal form. -/
theorem isNormal_ofParts {ps : List Predicate} (hfits : ∀ p ∈ ps, p.fits k = true)
    (hnormal : ∀ p ∈ ps, p.IsNormal) : (ofParts k ps).IsNormal := by
  -- only two terms or more become a group, and then the group is tidy
  match ps with
  | [] =>
    rw [ofParts_nil]
    exact isNormal_always
  | [p] =>
    rw [ofParts_singleton]
    exact hnormal p (List.mem_singleton_self p)
  | p :: q :: ps =>
    have htwo : 2 ≤ (p :: q :: ps).length := by simp
    rw [ofParts_of_two_le k htwo, isNormal_group_iff]
    exact ⟨htwo, hfits, hnormal⟩

/-- The predicates joined by the connective: what both operations do once they have set aside what is absent. -/
def gather (ps : List Predicate) : Predicate :=
  ofParts k (ps.flatMap (parts k))

/-- Joining predicates in normal form gives one. -/
theorem isNormal_gather {ps : List Predicate} (hnormal : ∀ p ∈ ps, p.IsNormal)
    (hk : k = .and ∨ ∀ p ∈ ps, p.isAlways = false) : (gather k ps).IsNormal := by
  -- what is gathered comes from the predicates one by one
  have hparts : ∀ p ∈ ps, (∀ q ∈ p.parts k, q.fits k = true) ∧ ∀ q ∈ p.parts k, q.IsNormal := by
    intro p hp
    exact (hnormal p hp).parts k (hk.imp_right fun hsome => hsome p hp)
  apply isNormal_ofParts
  · intro q hq
    obtain ⟨p, hp, hq⟩ := List.mem_flatMap.mp hq
    exact (hparts p hp).1 q hq
  · intro q hq
    obtain ⟨p, hp, hq⟩ := List.mem_flatMap.mp hq
    exact (hparts p hp).2 q hq

/-- Predicates that fit in a group are joined to a group with these terms. -/
theorem gather_of_fits {ps : List Predicate} (h : ∀ p ∈ ps, p.fits k = true) : gather k ps = ofParts k ps := by
  have hparts : ps.flatMap (parts k) = ps := by
    calc ps.flatMap (parts k)
      _ = ps.flatMap fun p => [p] := List.flatMap_congr fun p hp => parts_of_fits k (h p hp)
      _ = ps := List.flatMap_singleton' ps
  rw [gather, hparts]

/-! ## The operations -/

theorem mem_present {p : Predicate} {filters : List (Option Predicate)} : p ∈ present filters ↔ some p ∈ filters := by
  simp [present]

theorem allOf_eq_gather (filters : List (Option Predicate)) : allOf filters = gather .and (present filters) := rfl

theorem anyOf_eq_gather {filters : List (Option Predicate)} (h : ∀ p ∈ present filters, p.isAlways = false) :
    anyOf filters = gather .or (present filters) := by
  have hnone : ¬(present filters).any isAlways = true := by
    intro hany
    obtain ⟨p, hp, halways⟩ := List.any_eq_true.mp hany
    exact absurd halways (Bool.eq_false_iff.mp (h p hp))
  rw [anyOf, if_neg hnone]
  rfl

theorem anyOf_eq_always {filters : List (Option Predicate)} (h : some .always ∈ filters) : anyOf filters = .always := by
  have hany : (present filters).any isAlways = true := List.any_eq_true.mpr ⟨.always, mem_present.mpr h, rfl⟩
  rw [anyOf, if_pos hany]

/-- Either a filter that lets every record through is present, or all that are present restrict something. -/
theorem always_mem_or (filters : List (Option Predicate)) :
    some .always ∈ filters ∨ ∀ p ∈ present filters, p.isAlways = false := by
  by_cases h : some .always ∈ filters
  · exact Or.inl h
  · right
    intro p hp
    -- it is the one kind of predicate that restricts nothing
    cases p with
    | always => exact absurd (mem_present.mp hp) h
    | compare | all | any | not => rfl

/-! What holds of all filters that are present, for lists written out. -/

section Present

variable {motive : Predicate → Prop} {p q : Predicate} {filters : List (Option Predicate)}

theorem forall_some_mem_nil : ∀ x, some x ∈ ([] : List (Option Predicate)) → motive x := by
  intro x hx
  cases hx

theorem forall_some_mem_cons (hp : motive p) (h : ∀ x, some x ∈ filters → motive x) :
    ∀ x, some x ∈ some p :: filters → motive x := by
  intro x hx
  rcases List.mem_cons.mp hx with heq | hx
  · rw [Option.some.inj heq]
    exact hp
  · exact h x hx

theorem forall_some_mem_singleton (hp : motive p) : ∀ x, some x ∈ [some p] → motive x :=
  forall_some_mem_cons hp forall_some_mem_nil

theorem forall_some_mem_pair (hp : motive p) (hq : motive q) : ∀ x, some x ∈ [some p, some q] → motive x :=
  forall_some_mem_cons hp (forall_some_mem_singleton hq)

end Present

theorem isNormal_allOf {filters : List (Option Predicate)} (h : ∀ p, some p ∈ filters → p.IsNormal) :
    (allOf filters).IsNormal := by
  rw [allOf_eq_gather]
  apply isNormal_gather
  · intro p hp
    exact h p (mem_present.mp hp)
  · exact Or.inl rfl

theorem isNormal_anyOf {filters : List (Option Predicate)} (h : ∀ p, some p ∈ filters → p.IsNormal) :
    (anyOf filters).IsNormal := by
  rcases always_mem_or filters with halways | hsome
  · rw [anyOf_eq_always halways]
    exact isNormal_always
  -- without such a filter, every filter brings terms that fit
  · rw [anyOf_eq_gather hsome]
    apply isNormal_gather
    · intro p hp
      exact h p (mem_present.mp hp)
    · exact Or.inr hsome

/-- Whatever the operations build is in normal form. -/
theorem Built.isNormal {p : Predicate} (h : Built p) : p.IsNormal := by
  -- every operation is a conjunction, a disjunction or a negation of what has been built before
  induction h with
  | always => exact isNormal_always
  | compare field op value => exact isNormal_compare field op value
  | allOf _ ih => exact isNormal_allOf ih
  | anyOf _ ih => exact isNormal_anyOf ih
  | and _ _ ihp ihq => exact isNormal_allOf (forall_some_mem_pair ihp ihq)
  | or _ _ ihp ihq => exact isNormal_anyOf (forall_some_mem_pair ihp ihq)
  | not _ ih => exact (isNormal_not_iff _).mpr ih

/-! ## Every normal form can be built -/

theorem isAlways_of_fits {p : Predicate} (h : p.fits k = true) : p.isAlways = false := by
  cases p with
  | always => cases h
  | compare | all | any | not => rfl

/-- A tidy group is built by joining its terms. -/
theorem Built.group {ps : List Predicate} (htwo : 2 ≤ ps.length) (hfits : ∀ p ∈ ps, p.fits k = true)
    (hbuilt : ∀ p ∈ ps, Built p) : Built (group k ps) := by
  have hpresent : present (ps.map some) = ps := by simp [present]
  -- joining the terms by the operation makes the group, since each of them is brought in as it is
  have hgroup : gather k (present (ps.map some)) = Predicate.group k ps := by
    rw [hpresent, gather_of_fits k hfits, ofParts_of_two_le k htwo]
  have hterms : ∀ p, some p ∈ ps.map some → Built p := by
    intro p hp
    rw [← mem_present, hpresent] at hp
    exact hbuilt p hp
  rw [← hgroup]
  cases k with
  | and =>
    rw [← allOf_eq_gather]
    exact Built.allOf hterms
  | or =>
    -- a term that restricts nothing would decide the disjunction, but such a term fits in no group
    have hsome : ∀ p ∈ present (ps.map some), p.isAlways = false := by
      rw [hpresent]
      intro p hp
      exact isAlways_of_fits .or (hfits p hp)
    rw [← anyOf_eq_gather hsome]
    exact Built.anyOf hterms

/-- Every predicate in normal form can be built. -/
theorem IsNormal.built {p : Predicate} : p.IsNormal → Built p := by
  -- the normal form of a group gives that of its terms, and what the group needs to be joined from them again
  induction p using induct with
  | always =>
    intro _
    exact Built.always
  | compare field op value =>
    intro _
    exact Built.compare field op value
  | all terms ih =>
    intro h
    obtain ⟨htwo, hfits, hnormal⟩ := (isNormal_group_iff .and terms).mp h
    exact Built.group .and htwo hfits fun p hp => ih p hp (hnormal p hp)
  | any terms ih =>
    intro h
    obtain ⟨htwo, hfits, hnormal⟩ := (isNormal_group_iff .or terms).mp h
    exact Built.group .or htwo hfits fun p hp => ih p hp (hnormal p hp)
  | not term ih =>
    intro h
    exact Built.not (ih ((isNormal_not_iff term).mp h))

/-! ## Filters of searches -/

theorem built_textFilter {field : Field} {text : Option String} {p : Predicate}
    (h : Criteria.textFilter field text = some p) : Built p := by
  obtain ⟨s, -, rfl⟩ := Option.map_eq_some_iff.mp h
  exact Built.compare field .eq (.text s)

theorem built_ageAtLeast {age : Option Int32} {p : Predicate} (h : Criteria.ageAtLeast age = some p) : Built p := by
  obtain ⟨n, -, rfl⟩ := Option.map_eq_some_iff.mp h
  exact Built.compare .age .ge (.ofInt32 n)

theorem built_ageAtMost {age : Option Int32} {p : Predicate} (h : Criteria.ageAtMost age = some p) : Built p := by
  obtain ⟨n, -, rfl⟩ := Option.map_eq_some_iff.mp h
  exact Built.compare .age .le (.ofInt32 n)

theorem built_filter (c : Criteria) : Built c.filter := by
  apply Built.allOf
  intro p hp
  -- each filter is one of the four parts
  simp only [List.mem_cons, List.not_mem_nil, or_false] at hp
  rcases hp with h | h | h | h
  · exact built_textFilter h.symm
  · exact built_textFilter h.symm
  · exact built_ageAtLeast h.symm
  · exact built_ageAtMost h.symm

theorem built_ageBetween {minAge maxAge : Option Int32} {p : Predicate}
    (h : Criteria.ageBetween minAge maxAge = some p) : Built p := by
  have hbounds : p = allOf [Criteria.ageAtLeast minAge, Criteria.ageAtMost maxAge] := by
    -- there is such a predicate only if a bound is present
    unfold Criteria.ageBetween at h
    split at h
    · cases h
    · exact (Option.some.inj h).symm
  rw [hbounds]
  apply Built.allOf
  intro q hq
  simp only [List.mem_cons, List.not_mem_nil, or_false] at hq
  rcases hq with h | h
  · exact built_ageAtLeast h.symm
  · exact built_ageAtMost h.symm

/-! ## The normal form -/

/-- The operations build exactly the predicates in which every group, at any depth, has two terms at least, none of
them a group of its own kind and none of them without restriction.  So the filter of every search and the filter
between two ages are in this form. -/
theorem built_normal :
    (∀ p, Built p ↔ p.IsNormal) ∧ (∀ c : Criteria, c.filter.IsNormal) ∧
      ∀ minAge maxAge p, Criteria.ageBetween minAge maxAge = some p → p.IsNormal := by
  refine ⟨?_, ?_, ?_⟩
  · intro p
    exact ⟨Built.isNormal, IsNormal.built⟩
  · intro c
    exact (built_filter c).isNormal
  · intro minAge maxAge p h
    exact (built_ageBetween h).isNormal

/-- Groups nested by hand come out with one level each, and a negation keeps what is inside of it apart. -/
theorem built_normal_nested :
    let age := Predicate.compare .age .ge (.int 18)
    let team := Predicate.compare .teamName .eq (.text "teamA")
    let p := (anyOf [none, some age, some (age.or team)]).and (allOf [some .always, some (.not (team.or age))])
    let between := Predicate.all [.compare .age .ge (.ofInt32 18), .compare .age .le (.ofInt32 65)]
    Built p ∧ p.IsNormal ∧ p = .all [.any [age, age, team], .not (.any [team, age])] ∧
      Criteria.ageBetween (some 18) (some 65) = some between ∧ between.IsNormal := by
  intro age team p between
  have hage : Built age := Built.compare .age .ge (.int 18)
  have hteam : Built team := Built.compare .teamName .eq (.text "teamA")
  have hleft : Built (anyOf [none, some age, some (age.or team)]) := by
    apply Built.anyOf
    intro q hq
    exact forall_some_mem_pair hage (Built.or hage hteam) q (List.mem_of_ne_of_mem (Option.some_ne_none q) hq)
  have hright : Built (allOf [some .always, some (.not (team.or age))]) :=
    Built.allOf (forall_some_mem_pair Built.always (Built.not (Built.or hteam hage)))
  have hp : Built p := Built.and hleft hright
  have hbetween : Criteria.ageBetween (some 18) (some 65) = some between := by rfl
  obtain ⟨hiff, -, hages⟩ := built_normal
  exact ⟨hp, (hiff p).mp hp, rfl, hbetween, hages _ _ _ hbetween⟩

end Roster.Predicate
