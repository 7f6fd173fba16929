import Roster.Proofs.Criteria.Filter
import Roster.Proofs.Predicate.Algebra

/-! # The filter between two ages

The filter between two ages is one predicate, but where filters are joined it falls apart into its bounds.  So it may
stand for them among any other filters, and the result is the same predicate, not only one with the same meaning.

* `Predicate.allOf_nested`: filters may be joined before they are joined with others.
* `Criteria.Within`: the ages between two bounds, each of which may be absent.
* `Criteria.ageBetween_interchange`: what the filter between two ages is among others, and which records satisfy it.
-/

namespace Roster

/-- Filters that the operations build may be joined beforehand, whatever the filters around them are. -/
theorem Predicate.allOf_nested {inner : List (Option Predicate)} (h : ∀ p, some p ∈ inner → Built p)
    (before after : List (Option Predicate)) :
    allOf (before ++ [some (allOf inner)] ++ after) = allOf (before ++ inner ++ after) := by
  -- the conjunction of the inner filters brings just their terms into the outer one
  have hinner : (present [some (allOf inner)]).flatMap conjuncts = (present inner).flatMap conjuncts := by
    have hparts : (allOf inner).parts .and = (present inner).flatMap (parts .and) := (joinable_and h).parts_gather
    exact (List.flatMap_singleton conjuncts (allOf inner)).trans hparts
  have hterms (filters : List (Option Predicate)) :
      (present (before ++ filters ++ after)).flatMap conjuncts =
        (present before).flatMap conjuncts ++ (present filters).flatMap conjuncts ++
          (present after).flatMap conjuncts := by
    rw [present_append, present_append, List.flatMap_append, List.flatMap_append]
  have hsame := (hterms [some (allOf inner)]).trans (hinner ▸ (hterms inner).symm)
  exact congrArg ofConjuncts hsame

namespace Criteria

/-- The age lies between the bounds; an absent one does not restrict it. -/
structure Within (minAge maxAge : Option Int32) (age : Int) : Prop where
  lower : ∀ n, minAge = some n → n.toInt ≤ age
  upper : ∀ n, maxAge = some n → age ≤ n.toInt

variable {minAge maxAge : Option Int32}

/-! ## The filter and its bounds -/

/-- Without a bound there is no filter; otherwise the filter is the conjunction of the bounds that are present. -/
theorem ageBetween_eq (minAge maxAge : Option Int32) :
    ageBetween minAge maxAge =
      if minAge = none ∧ maxAge = none then none else some (.allOf [ageAtLeast minAge, ageAtMost maxAge]) := by
  rcases minAge with _ | low
  · rcases maxAge with _ | high
    · rfl
    · rfl
  · rfl

theorem ageBetween_eq_none_iff : ageBetween minAge maxAge = none ↔ minAge = none ∧ maxAge = none := by
  rw [ageBetween_eq]
  split
  case isTrue h => exact ⟨fun _ => h, fun _ => rfl⟩
  case isFalse h => exact ⟨nofun, fun hnone => absurd hnone h⟩

theorem built_bounds (minAge maxAge : Option Int32) :
    ∀ p, some p ∈ [ageAtLeast minAge, ageAtMost maxAge] → Predicate.Built p := by
  intro p hp
  rcases List.mem_cons.mp hp with hlow | hp
  · exact Predicate.built_ageAtLeast hlow.symm
  · exact Predicate.built_ageAtMost (List.mem_singleton.mp hp).symm

/-- Among other filters, the filter between two ages may be replaced by its bounds. -/
theorem allOf_ageBetween (minAge maxAge : Option Int32) (before after : List (Option Predicate)) :
    Predicate.allOf (before ++ [ageBetween minAge maxAge] ++ after) =
      Predicate.allOf (before ++ [ageAtLeast minAge, ageAtMost maxAge] ++ after) := by
  rw [ageBetween_eq]
  split
  case isTrue h =>
    -- what is absent leaves no trace, be it one filter or two
    rcases h with ⟨rfl, rfl⟩
    simp only [Predicate.allOf_eq_gather, Predicate.present_append]
    rfl
  case isFalse => exact Predicate.allOf_nested (built_bounds minAge maxAge) before after

/-! ## Records between two ages -/

/-- A comparison with an age needs a number in the record. -/
theorem holds_number_iff (r : Record) (op : Comparison) (n : Int32) :
    (Predicate.compare .age op (.ofInt32 n)).holds r = true ↔
      ∃ age : Int64, r .age = some (.int age) ∧ op.relates age.toInt n.toInt = true := by
  rw [Predicate.holds_iff, Predicate.truth_compare, Predicate.compareTruth_eq_valuation]
  rcases r .age with _ | age | s
  · simp [Predicate.comparisonValuation]
  · simp [Predicate.comparisonValuation, Value.ofInt32, ofBool_eq_yes_iff]
  · simp [Predicate.comparisonValuation, Value.ofInt32]

/-- A record satisfies the conjunction of the bounds when it satisfies each that is present. -/
theorem holds_bounds_iff (r : Record) :
    (Predicate.allOf [ageAtLeast minAge, ageAtMost maxAge]).holds r = true ↔
      (∀ n, minAge = some n → (Predicate.compare .age .ge (.ofInt32 n)).holds r = true) ∧
        ∀ n, maxAge = some n → (Predicate.compare .age .le (.ofInt32 n)).holds r = true := by
  rw [Predicate.holds_allOf_iff]
  constructor
  · -- every term holds, and the terms that are present are the two bounds
    intro h
    refine ⟨?_, ?_⟩
    · rintro n rfl
      exact h _ List.mem_cons_self
    · rintro n rfl
      exact h _ (List.mem_cons_of_mem _ List.mem_cons_self)
  · rintro ⟨hlow, hhigh⟩ p hp
    rcases List.mem_cons.mp hp with hp | hp
    · -- the lower bound
      rcases Option.map_eq_some_iff.mp hp.symm with ⟨n, hn, rfl⟩
      exact hlow n hn
    · -- the upper bound
      rcases Option.map_eq_some_iff.mp (List.mem_singleton.mp hp).symm with ⟨n, hn, rfl⟩
      exact hhigh n hn

/-- The records between two ages are those with a number between the bounds. -/
theorem holds_ageBetween_iff {p : Predicate} (h : ageBetween minAge maxAge = some p) (r : Record) :
    p.holds r = true ↔ ∃ age : Int64, r .age = some (.int age) ∧ Within minAge maxAge age.toInt := by
  rw [ageBetween_eq] at h
  split at h
  case isTrue => cases h
  case isFalse hbounds =>
    rw [← Option.some.inj h, holds_bounds_iff]
    simp only [holds_number_iff, Comparison.relates, decide_eq_true_iff]
    constructor
    · rintro ⟨hlow, hhigh⟩
      -- one of the bounds is present, and the record has a number because it satisfies that one
      have hage : ∃ age : Int64, r .age = some (.int age) := by
        rcases minAge with _ | low
        · rcases maxAge with _ | high
          · exact absurd ⟨rfl, rfl⟩ hbounds
          · rcases hhigh high rfl with ⟨age, hage, -⟩
            exact ⟨age, hage⟩
        · rcases hlow low rfl with ⟨age, hage, -⟩
          exact ⟨age, hage⟩
      rcases hage with ⟨age, hage⟩
      refine ⟨age, hage, ?_, ?_⟩
      -- both comparisons were made with that number
      · intro n hn
        rcases hlow n hn with ⟨other, hother, hle⟩
        cases hage.symm.trans hother
        exact hle
      · intro n hn
        rcases hhigh n hn with ⟨other, hother, hle⟩
        cases hage.symm.trans hother
        exact hle
    · rintro ⟨age, hage, hlow, hhigh⟩
      exact ⟨fun n hn => ⟨age, hage, hlow n hn⟩, fun n hn => ⟨age, hage, hhigh n hn⟩⟩

/-- A line of the roster always has a number for the age. -/
theorem holds_ageBetween_entry_iff {p : Predicate} (h : ageBetween minAge maxAge = some p) (entry : Entry) :
    p.holds entry.record = true ↔ Within minAge maxAge entry.age.toInt := by
  -- what the record has for the age is the member's age, in 64 bits
  have hvalue : entry.record .age = some (.int entry.age.toInt64) := rfl
  rw [holds_ageBetween_iff h]
  constructor
  · rintro ⟨age, hage, hwithin⟩
    cases hvalue.symm.trans hage
    rwa [Int32.toInt_toInt64] at hwithin
  · intro hwithin
    refine ⟨_, hvalue, ?_⟩
    rwa [Int32.toInt_toInt64]

/-- The filter between two ages may be replaced by its two bounds wherever filters are joined.  It is absent exactly when
both bounds are, and otherwise it is satisfied by the lines of the roster with an age between them, and in general by
the records that have a number between them for the age. -/
theorem ageBetween_interchange (minAge maxAge : Option Int32) :
    (∀ before after, Predicate.allOf (before ++ [ageBetween minAge maxAge] ++ after) =
      Predicate.allOf (before ++ [ageAtLeast minAge, ageAtMost maxAge] ++ after)) ∧
    (ageBetween minAge maxAge = none ↔ minAge = none ∧ maxAge = none) ∧
    ∀ p, ageBetween minAge maxAge = some p →
      (∀ entry : Entry, p.holds entry.record = true ↔ Within minAge maxAge entry.age.toInt) ∧
      ∀ r : Record, p.holds r = true ↔
        ∃ age : Int64, r .age = some (.int age) ∧ Within minAge maxAge age.toInt := by
  refine ⟨allOf_ageBetween minAge maxAge, ageBetween_eq_none_iff, ?_⟩
  intro p h
  exact ⟨holds_ageBetween_entry_iff h, holds_ageBetween_iff h⟩

/-- Between groups that no operation makes, and on a member of the age of the lower bound. -/
theorem ageBetween_interchange_twenty :
    let between := Predicate.all [.compare .age .ge (.int 20), .compare .age .le (.int 30)]
    let entry := Entry.ofTeam 2 "member2" 20 none
    ageBetween (some 20) (some 30) = some between ∧ between.holds entry.record = true ∧
      Predicate.allOf [some (.all []), ageBetween (some 20) (some 30), none, some (.all [.always])] =
        .all [.compare .age .ge (.int 20), .compare .age .le (.int 30), .always] := by
  intro between entry
  have hbetween : ageBetween (some 20) (some 30) = some between := by rfl
  have hwithin : Within (some 20) (some 30) entry.age.toInt := by
    refine ⟨?_, ?_⟩
    · rintro n ⟨⟩
      decide
    · rintro n ⟨⟩
      decide
  rcases ageBetween_interchange (some 20) (some 30) with ⟨hjoined, -, hholds⟩
  refine ⟨hbetween, ((hholds _ hbetween).1 entry).mpr hwithin, ?_⟩
  exact (hjoined [some (.all [])] [none, some (.all [.always])]).trans rfl

end Criteria

end Roster
