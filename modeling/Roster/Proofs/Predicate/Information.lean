import Roster.Member
import Roster.Proofs.Predicate.Truth

/-! # Predicates on records that hold more

A record may leave fields empty that another one fills.  What a predicate says of the first record for certain it says
of the second as well: a field that is filled later can only settle what was unknown, under negations, too.  So a
member, whose record lacks the name of the team, is judged as the line of the roster for that member is, wherever the
judgement is certain.

* `Connective.group_keeps`: a group keeps its truth when its terms keep theirs.
* `truth_keeps`: a predicate keeps its truth on a record that holds more.
* `truth_information`: the same for certain truths, and for members beside their lines of the roster.
-/

namespace Roster

/-! ## Truth values that get settled -/

/-- The second truth value is what can become of the first one: the unknown may turn into anything, and what is certain
stays. -/
def Truth.Keeps (before after : Truth) : Prop :=
  before = .unknown ∨ after = before

theorem Truth.Keeps.negate {a b : Truth} (h : a.Keeps b) : a.negate.Keeps b.negate := by
  rcases h with rfl | rfl
  · exact Or.inl rfl
  · exact Or.inr rfl

namespace Connective

variable (k : Connective)

theorem join_keeps {a b c d : Truth} (hac : a.Keeps c) (hbd : b.Keeps d) : (k.join a b).Keeps (k.join c d) := by
  -- either term is unknown at first or keeps its value
  rcases hac with rfl | rfl
  · rcases hbd with rfl | rfl
    · exact Or.inl (by cases k <;> rfl)
    · -- the second term decides, or it leaves the pair unknown
      cases k <;> cases c <;> cases d <;> simp [Truth.Keeps, join]
  · rcases hbd with rfl | rfl
    · cases k <;> cases c <;> cases d <;> simp [Truth.Keeps, join]
    · exact Or.inr rfl

/-- A group keeps its truth when each of its terms does. -/
theorem group_keeps {α : Type} {f g : α → Truth} {xs : List α} (h : ∀ x ∈ xs, (f x).Keeps (g x)) :
    (k.group (xs.map f)).Keeps (k.group (xs.map g)) := by
  -- a group is joined term by term, and each join keeps what is certain
  induction xs with
  | nil => exact Or.inr rfl
  | cons x xs ih =>
    rw [List.forall_mem_cons] at h
    rw [List.map_cons, List.map_cons, group_cons, group_cons]
    exact k.join_keeps h.1 (ih h.2)

end Connective

/-! ## Records that hold more -/

/-- Whatever the first record holds in a field, the second one holds there, too. -/
def Record.Within (r s : Record) : Prop :=
  ∀ field value, r field = some value → s field = some value

def Entry.member (entry : Entry) : Member :=
  ⟨entry.memberId, entry.username, entry.age, entry.teamId⟩

/-- A line of the roster holds all that is known of its member alone, and perhaps the name of the team. -/
theorem Entry.member_within (entry : Entry) : entry.member.record.Within entry.record := by
  intro field value h
  cases field with
  | memberId | username | age | teamId => exact h
  | teamName => cases h

namespace Predicate

variable {r s : Record}

theorem compareTruth_keeps (h : r.Within s) (field : Field) (op : Comparison) (value : Value) :
    (compareTruth r field op value).Keeps (compareTruth s field op value) := by
  -- a comparison with a missing value is unknown, and one with a value stays as it is
  cases hfield : r field with
  | none =>
    left
    rw [compareTruth, hfield]
  | some actual =>
    right
    rw [compareTruth, compareTruth, hfield, h field actual hfield]

/-- A predicate keeps its truth on a record that holds more. -/
theorem truth_keeps (h : r.Within s) (p : Predicate) : (truth r p).Keeps (truth s p) := by
  induction p using induct with
  | always =>
    rw [truth_always, truth_always]
    exact Or.inr rfl
  | compare field op value =>
    rw [truth_compare, truth_compare]
    exact compareTruth_keeps h field op value
  | all terms ih =>
    rw [truth_all, truth_all]
    exact Connective.group_keeps .and ih
  | any terms ih =>
    rw [truth_any, truth_any]
    exact Connective.group_keeps .or ih
  | not term ih =>
    rw [truth_not, truth_not]
    exact ih.negate

theorem truth_eq_of_within (h : r.Within s) {p : Predicate} (hsettled : truth r p ≠ .unknown) :
    truth s p = truth r p := by
  rcases truth_keeps h p with hunknown | hsame
  · exact absurd hunknown hsettled
  · exact hsame

theorem holds_of_within (h : r.Within s) {p : Predicate} (hp : p.holds r = true) : p.holds s = true := by
  rw [holds_iff] at hp ⊢
  have hsettled : truth r p ≠ .unknown := by
    rw [hp]
    decide
  rw [truth_eq_of_within h hsettled, hp]

/-- A truth that is certain on a record is the truth on every record that holds the same and more.  So a line of the
roster satisfies every predicate that its member alone satisfies, whatever the name of the team, and it satisfies the
negation of every predicate whose negation the member satisfies. -/
theorem truth_information :
    (∀ (p : Predicate) (r s : Record), r.Within s → ∀ t, t ≠ .unknown → truth r p = t → truth s p = t) ∧
    (∀ (member : Member) (entry : Entry), entry.member = member → ∀ p : Predicate,
      (p.holds member.record = true → p.holds entry.record = true) ∧
      ((Predicate.not p).holds member.record = true → (Predicate.not p).holds entry.record = true)) := by
  constructor
  · rintro p r s h t hsettled rfl
    exact truth_eq_of_within h hsettled
  · rintro member entry rfl p
    exact ⟨holds_of_within entry.member_within, holds_of_within entry.member_within⟩

/-- A member of age 17 in a team whose name is open at first: being of age is what the member lacks to satisfy the
conjunction, whatever the team. -/
theorem truth_information_nested :
    let team := Predicate.compare .teamName .eq (.text "teamA")
    let ofAge := Predicate.compare .age .ge (.int 18)
    let p := Predicate.not (.all [team, .any [ofAge, .not (.all [])]])
    let r := Record.ofList [(.age, .int 17)]
    let s := Record.ofList [(.teamName, .text "teamA"), (.age, .int 17)]
    let member : Member := ⟨7, "member7", 17, some 1⟩
    let entry : Entry := ⟨7, "member7", 17, some 1, some "teamA"⟩
    r.Within s ∧ truth r team = .unknown ∧ Truth.yes ≠ .unknown ∧ truth r p = .yes ∧ truth s p = .yes ∧
      entry.member = member ∧ p.holds member.record = true ∧ p.holds entry.record = true ∧
      (Predicate.not ofAge).holds member.record = true ∧ (Predicate.not ofAge).holds entry.record = true := by
  intro team ofAge p r s member entry
  have hwithin : r.Within s := by
    intro field value h
    -- all that the first record holds is an age
    cases field with
    | age => exact h
    | memberId | username | teamId | teamName => cases h
  have hp : truth r p = .yes := by decide
  have hmember : p.holds member.record = true := by decide
  have hnegation : (Predicate.not ofAge).holds member.record = true := by decide
  obtain ⟨hrecords, hentries⟩ := truth_information
  exact ⟨hwithin, by decide, by decide, hp, hrecords p r s hwithin .yes (by decide) hp, rfl, hmember,
    (hentries member entry rfl p).1 hmember, hnegation, (hentries member entry rfl ofAge).2 hnegation⟩

end Predicate

end Roster
