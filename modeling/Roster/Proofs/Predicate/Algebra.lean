import Roster.Proofs.Predicate.NormalForm

/-! # The algebra of the operations on predicates

On the predicates that the operations build, laws of "and" and "or" hold as equations between predicates, not only
between their truths: a group that an operation makes falls apart again into just its terms when it is joined with
others.  For predicates with groups that no operation makes the laws fail: a conjunction without terms or with a
single one is not what comes back when it is joined with nothing else.

* `parts_gather`: what a predicate made of others brings into a group of the same connective.
* `allOf_append`, `anyOf_append`: joining two lists at once, or each on its own first.
* `combination_laws`: the laws of both operations.
-/

namespace Roster.Predicate

variable (k : Connective)

/-! ## Taking groups apart -/

/-- A predicate in normal form is made of the terms that it brings into a group. -/
theorem IsNormal.ofParts_parts {p : Predicate} (h : p.IsNormal) : ofParts k (p.parts k) = p := by
  rcases always_or_group_or_fits k p with rfl | ⟨ps, rfl⟩ | hfits
  · cases k <;> rfl
  · have htwo : 2 ≤ ps.length := ((isNormal_group_iff k ps).mp h).1
    rw [parts_group, ofParts_of_two_le k htwo]
  · rw [parts_of_fits k hfits, ofParts_singleton]

/-- In a disjunction every predicate in normal form leaves a term. -/
theorem IsNormal.parts_ne_nil {p : Predicate} (h : p.IsNormal) : p.parts .or ≠ [] := by
  -- only a group could bring nothing, and a group in normal form has two terms
  rcases always_or_group_or_fits .or p with rfl | ⟨ps, rfl⟩ | hfits
  · exact List.cons_ne_nil _ _
  · have htwo : 2 ≤ ps.length := ((isNormal_group_iff .or ps).mp h).1
    rw [parts_group]
    rintro rfl
    exact absurd htwo (by decide)
  · rw [parts_of_fits .or hfits]
    exact List.cons_ne_nil _ _

/-- Terms that fit in a group are what the predicate made of them brings into it; a disjunction has one at least. -/
theorem parts_ofParts {ps : List Predicate} (hfits : ∀ p ∈ ps, p.fits k = true) (hk : k = .and ∨ ps ≠ []) :
    -- the function that makes a group looks for two terms at least
    (ofParts k ps).parts k = ps := by
  match ps with
  | [] =>
    rcases hk with rfl | hne
    · rfl
    · exact absurd rfl hne
  | [p] =>
    -- a single term is left as it is, and it fits, so that it is no group to be taken apart
    rw [ofParts_singleton, parts_of_fits k (hfits p (List.mem_singleton_self p))]
  | p :: q :: ps =>
    have htwo : 2 ≤ (p :: q :: ps).length := by simp
    rw [ofParts_of_two_le k htwo, parts_group]

/-! ## Joining what is joined -/

/-- Predicates in normal form whose join keeps a trace of them all: in a disjunction there is one at least, and none
that lets every record through. -/
structure Joinable (ps : List Predicate) : Prop where
  normal : ∀ p ∈ ps, p.IsNormal
  effective : k = .and ∨ (∀ p ∈ ps, p.isAlways = false) ∧ ps ≠ []

variable {k}

theorem Joinable.fits {ps : List Predicate} (h : Joinable k ps) : ∀ q ∈ ps.flatMap (parts k), q.fits k = true := by
  intro q hq
  obtain ⟨p, hp, hq⟩ := List.mem_flatMap.mp hq
  have hsome : k = .and ∨ p.isAlways = false := h.effective.imp_right fun he => he.1 p hp
  exact ((h.normal p hp).parts k hsome).1 q hq

/-- The predicate made of others brings into a group just what they bring into it. -/
theorem Joinable.parts_gather {ps : List Predicate} (h : Joinable k ps) :
    (gather k ps).parts k = ps.flatMap (parts k) := by
  apply parts_ofParts k h.fits
  rcases h.effective with hand | ⟨-, hne⟩
  · exact Or.inl hand
  -- a conjunction may be without terms; a disjunction gets one from each of its predicates
  · cases k with
    | and => exact Or.inl rfl
    | or =>
      right
      obtain ⟨p, hp⟩ := List.exists_mem_of_ne_nil ps hne
      intro hnil
      exact (h.normal p hp).parts_ne_nil (List.flatMap_eq_nil_iff.mp hnil p hp)

/-- Joining two lists at once is joining each of them and then the results. -/
theorem Joinable.gather_append {ps qs : List Predicate} (hps : Joinable k ps) (hqs : Joinable k qs) :
    gather k (ps ++ qs) = gather k [gather k ps, gather k qs] := by
  have htwo : [gather k ps, gather k qs].flatMap (parts k) = (ps ++ qs).flatMap (parts k) := by
    calc [gather k ps, gather k qs].flatMap (parts k)
      _ = (gather k ps).parts k ++ (gather k qs).parts k := by simp
      _ = ps.flatMap (parts k) ++ qs.flatMap (parts k) := by rw [hps.parts_gather, hqs.parts_gather]
      _ = (ps ++ qs).flatMap (parts k) := List.flatMap_append.symm
  rw [gather, gather, htwo]

/-- A disjunction of predicates that each restrict something restricts something. -/
theorem Joinable.isAlways_gather {ps : List Predicate} (h : Joinable .or ps) : (gather .or ps).isAlways = false := by
  cases hgather : gather .or ps with
  | compare | all | any | not => rfl
  | always =>
    -- it would bring itself into a disjunction, where it does not fit
    have hparts : ps.flatMap (parts .or) = [.always] := by
      rw [← h.parts_gather, hgather]
      rfl
    have hfits : Predicate.fits .or .always = true := by
      apply h.fits
      rw [hparts]
      exact List.mem_singleton_self _
    cases hfits

theorem IsNormal.gather_singleton {p : Predicate} (h : p.IsNormal) : gather k [p] = p := by
  rw [gather, List.flatMap_singleton, h.ofParts_parts]

/-- An operation that joins lists piece by piece and leaves a predicate alone as it is joins three predicates in either
order: both ways give what it makes of the three at once. -/
theorem assoc_of_append {f : List (Option Predicate) → Predicate} (hsingleton : ∀ {p}, Built p → f [some p] = p)
    (happend : ∀ {fs gs}, (∀ p, some p ∈ fs → Built p) → (∀ p, some p ∈ gs → Built p) → present fs ≠ [] →
      present gs ≠ [] → f (fs ++ gs) = f [some (f fs), some (f gs)])
    {p q r : Predicate} (hp : Built p) (hq : Built q) (hr : Built r) :
    -- both ways to put three together come to the list of all three
    f [some (f [some p, some q]), some r] = f [some p, some (f [some q, some r])] := by
  have hleft : f [some p, some q, some r] = f [some (f [some p, some q]), some (f [some r])] :=
    happend (forall_some_mem_pair hp hq) (forall_some_mem_singleton hr) (List.cons_ne_nil _ _) (List.cons_ne_nil _ _)
  have hright : f [some p, some q, some r] = f [some (f [some p]), some (f [some q, some r])] :=
    happend (forall_some_mem_singleton hp) (forall_some_mem_pair hq hr) (List.cons_ne_nil _ _) (List.cons_ne_nil _ _)
  rw [hsingleton hr] at hleft
  rw [hsingleton hp] at hright
  exact hleft.symm.trans hright

/-! ## Conjunction -/

theorem joinable_and {filters : List (Option Predicate)} (h : ∀ p, some p ∈ filters → Built p) :
    Joinable .and (present filters) := by
  constructor
  · intro p hp
    exact (h p (mem_present.mp hp)).isNormal
  · exact Or.inl rfl

/-- The conjunction of two lists is the conjunction of their conjunctions. -/
theorem allOf_append {fs gs : List (Option Predicate)} (hfs : ∀ p, some p ∈ fs → Built p)
    (hgs : ∀ p, some p ∈ gs → Built p) : allOf (fs ++ gs) = (allOf fs).and (allOf gs) := by
  rw [Predicate.and, allOf_eq_gather, present_append, (joinable_and hfs).gather_append (joinable_and hgs)]
  rfl

/-- The conjunction of a single predicate is that predicate. -/
theorem allOf_singleton {p : Predicate} (hp : Built p) : allOf [some p] = p :=
  hp.isNormal.gather_singleton (k := .and)

/-- Without the normal form this fails: a conjunction without terms disappears. -/
example : allOf [some (.all [])] = .always := rfl

theorem always_and {p : Predicate} (hp : Built p) : Predicate.always.and p = p :=
  allOf_singleton hp

theorem and_always {p : Predicate} (hp : Built p) : p.and .always = p := by
  have happend : allOf [some p] = (allOf [some p]).and .always :=
    allOf_append (forall_some_mem_singleton hp) forall_some_mem_nil
  rw [allOf_singleton hp] at happend
  exact happend.symm

/-- The order in which three predicates are joined does not matter. -/
theorem conjunction_assoc {p q r : Predicate} (hp : Built p) (hq : Built q) (hr : Built r) :
    (p.and q).and r = p.and (q.and r) := by
  refine assoc_of_append (f := allOf) allOf_singleton ?_ hp hq hr
  intro fs gs hfs hgs _ _
  exact allOf_append hfs hgs

/-! ## Disjunction -/

theorem always_or (p : Predicate) : Predicate.always.or p = .always :=
  anyOf_eq_always List.mem_cons_self

theorem or_always (p : Predicate) : p.or .always = .always :=
  anyOf_eq_always (List.mem_cons_of_mem _ List.mem_cons_self)

theorem joinable_or {filters : List (Option Predicate)} (h : ∀ p, some p ∈ filters → Built p)
    (hsome : ∀ p ∈ present filters, p.isAlways = false) (hne : present filters ≠ []) :
    Joinable .or (present filters) := by
  constructor
  · intro p hp
    exact (h p (mem_present.mp hp)).isNormal
  · exact Or.inr ⟨hsome, hne⟩

/-- The disjunction of two lists, each with a predicate in it, is the disjunction of their disjunctions. -/
theorem anyOf_append {fs gs : List (Option Predicate)} (hfs : ∀ p, some p ∈ fs → Built p)
    (hgs : ∀ p, some p ∈ gs → Built p) (hfne : present fs ≠ []) (hgne : present gs ≠ []) :
    anyOf (fs ++ gs) = (anyOf fs).or (anyOf gs) := by
  -- where some filter lets every record through, both sides are that filter
  rcases always_mem_or fs with hf | hf
  · rw [anyOf_eq_always hf, anyOf_eq_always (List.mem_append_left gs hf), always_or]
  rcases always_mem_or gs with hg | hg
  · rw [anyOf_eq_always hg, anyOf_eq_always (List.mem_append_right fs hg), or_always]
  -- no side lets every record through, so neither does the disjunction of either
  have hjf : Joinable .or (present fs) := joinable_or hfs hf hfne
  have hjg : Joinable .or (present gs) := joinable_or hgs hg hgne
  have hboth : ∀ p ∈ present (fs ++ gs), p.isAlways = false := by
    rw [present_append, List.forall_mem_append]
    exact ⟨hf, hg⟩
  -- the same holds of the two disjunctions that are joined in the end
  have hjoined : ∀ p ∈ present [some (gather .or (present fs)), some (gather .or (present gs))],
      p.isAlways = false := by
    intro p hp
    exact forall_some_mem_pair (motive := (·.isAlways = false)) hjf.isAlways_gather hjg.isAlways_gather p
      (mem_present.mp hp)
  calc anyOf (fs ++ gs)
    _ = gather .or (present fs ++ present gs) := by rw [anyOf_eq_gather hboth, present_append]
    _ = gather .or [gather .or (present fs), gather .or (present gs)] := hjf.gather_append hjg
    _ = anyOf [some (gather .or (present fs)), some (gather .or (present gs))] := (anyOf_eq_gather hjoined).symm
    _ = (anyOf fs).or (anyOf gs) := by rw [Predicate.or, anyOf_eq_gather hf, anyOf_eq_gather hg]

/-- The disjunction of a single predicate is that predicate. -/
theorem anyOf_singleton {p : Predicate} (hp : Built p) : anyOf [some p] = p := by
  rcases always_mem_or [some p] with halways | hsome
  · rw [anyOf_eq_always halways]
    exact Option.some.inj (List.mem_singleton.mp halways)
  · rw [anyOf_eq_gather hsome]
    exact hp.isNormal.gather_singleton

/-- The order in which three predicates are joined does not matter. -/
theorem disjunction_assoc {p q r : Predicate} (hp : Built p) (hq : Built q) (hr : Built r) :
    (p.or q).or r = p.or (q.or r) :=
  assoc_of_append (f := anyOf) anyOf_singleton anyOf_append hp hq hr

/-! ## The laws -/

/-- The laws of the operations on predicates that they build themselves, as equations between predicates: the
conjunction of two lists is that of their conjunctions; "and" is associative and has the predicate without restriction
as neutral element on both sides; a predicate alone is its own conjunction and disjunction; "or" is associative and is
absorbed by the predicate without restriction on both sides; and the disjunction of two lists with a predicate in each
of them is that of their disjunctions. -/
theorem combination_laws :
    (∀ fs gs, (∀ p, some p ∈ fs → Built p) → (∀ p, some p ∈ gs → Built p) →
      allOf (fs ++ gs) = (allOf fs).and (allOf gs)) ∧
    (∀ p q r, Built p → Built q → Built r → (p.and q).and r = p.and (q.and r)) ∧
    (∀ p, Built p → Predicate.always.and p = p ∧ p.and .always = p) ∧
    (∀ p, Built p → allOf [some p] = p ∧ anyOf [some p] = p) ∧
    (∀ p q r, Built p → Built q → Built r → (p.or q).or r = p.or (q.or r)) ∧
    (∀ p, Built p → Predicate.always.or p = .always ∧ p.or .always = .always) ∧
    (∀ fs gs, (∀ p, some p ∈ fs → Built p) → (∀ p, some p ∈ gs → Built p) → present fs ≠ [] → present gs ≠ [] →
      anyOf (fs ++ gs) = (anyOf fs).or (anyOf gs)) := by
  refine ⟨?_, ?_, ?_, ?_, ?_, ?_, ?_⟩
  · intro fs gs hfs hgs
    exact allOf_append hfs hgs
  · intro p q r hp hq hr
    exact conjunction_assoc hp hq hr
  · intro p hp
    exact ⟨always_and hp, and_always hp⟩
  · intro p hp
    exact ⟨allOf_singleton hp, anyOf_singleton hp⟩
  · intro p q r hp hq hr
    exact disjunction_assoc hp hq hr
  · intro p _
    exact ⟨always_or p, or_always p⟩
  · intro fs gs hfs hgs hfne hgne
    exact anyOf_append hfs hgs hfne hgne

/-- A conjunction, a disjunction and a negation, and lists of them with an absent filter. -/
theorem combination_laws_nested :
    let age := Predicate.compare .age .ge (.int 18)
    let team := Predicate.compare .teamName .eq (.text "teamA")
    let p := age.and team
    let q := team.or age
    let r := Predicate.not age
    let fs := [none, some p]
    let gs := [some q, some r]
    (∀ x, some x ∈ fs → Built x) ∧ (∀ x, some x ∈ gs → Built x) ∧ present fs ≠ [] ∧ present gs ≠ [] ∧
      Built p ∧ Built q ∧ Built r ∧ allOf (fs ++ gs) = (allOf fs).and (allOf gs) ∧
      (p.and q).and r = p.and (q.and r) ∧ p.and .always = p ∧ allOf [some p] = p ∧ anyOf [some q] = q ∧
      (p.or q).or r = p.or (q.or r) ∧ q.or .always = .always ∧ anyOf (fs ++ gs) = (anyOf fs).or (anyOf gs) := by
  intro age team p q r fs gs
  have hage : Built age := Built.compare .age .ge (.int 18)
  have hteam : Built team := Built.compare .teamName .eq (.text "teamA")
  have hp : Built p := Built.and hage hteam
  have hq : Built q := Built.or hteam hage
  have hr : Built r := Built.not hage
  -- an absent filter is never asked to be in normal form
  have hfs : ∀ x, some x ∈ fs → Built x := by
    intro x hx
    exact forall_some_mem_singleton hp x (List.mem_of_ne_of_mem (Option.some_ne_none x) hx)
  have hgs : ∀ x, some x ∈ gs → Built x := forall_some_mem_pair hq hr
  have hfne : present fs ≠ [] := List.cons_ne_nil p []
  have hgne : present gs ≠ [] := List.cons_ne_nil q [r]
  obtain ⟨hallOf, hand, hneutral, halone, hor, habsorbing, hanyOf⟩ := combination_laws
  exact ⟨hfs, hgs, hfne, hgne, hp, hq, hr, hallOf fs gs hfs hgs, hand p q r hp hq hr, (hneutral p hp).2,
    (halone p hp).1, (halone q hq).2, hor p q r hp hq hr, (habsorbing q hq).2, hanyOf fs gs hfs hgs hfne hgne⟩

end Roster.Predicate
