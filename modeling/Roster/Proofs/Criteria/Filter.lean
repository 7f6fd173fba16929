import Roster.Criteria.Query
import Roster.Member
import Roster.Proofs.Predicate.Leaves
import Roster.Proofs.Predicate.Valuation

/-! # The filter of a search

What the predicate of search criteria says of a line of the roster: the name and the name of the team are the ones asked
for, and the age lies within the bounds.  A part that is absent or blank text asks for nothing and leaves no trace in
the predicate.

* `Criteria.Asks`: whether a part of the criteria asks for anything.
* `Criteria.Admits`: the lines of the roster that the criteria ask for.
* `Criteria.filter_meaning`: the filter is satisfied by just these lines, it lets everything through when no part asks
  for anything, and otherwise it has one comparison for each part that does.
-/

namespace Roster.Criteria

/-! ## What criteria ask for -/

theorem Key.mem_values (key : Key) : key ∈ values := by
  cases key <;> decide

/-- The text has a character that is not blank. -/
def HasText (s : String) : Prop :=
  ∃ c ∈ s.toList, Text.isBlankChar c = false

instance (s : String) : Decidable (HasText s) :=
  inferInstanceAs (Decidable (∃ c ∈ s.toList, Text.isBlankChar c = false))

/-- The part of the criteria is present and no blank text. -/
def Asks (c : Criteria) : Key → Prop
  | .username => ∃ s, c.username = some s ∧ HasText s
  | .teamName => ∃ s, c.teamName = some s ∧ HasText s
  | .minAge => ∃ n, c.minAge = some n
  | .maxAge => ∃ n, c.maxAge = some n

/-- The line of the roster is what the criteria ask for. -/
structure Admits (c : Criteria) (entry : Entry) : Prop where
  username : ∀ s, c.username = some s → HasText s → entry.username = s
  teamName : ∀ s, c.teamName = some s → HasText s → entry.teamName = some s
  minAge : ∀ n, c.minAge = some n → n ≤ entry.age
  maxAge : ∀ n, c.maxAge = some n → entry.age ≤ n

/-- The comparison of a field with a text that is asked for. -/
def textComparison? (field : Field) (text : Option String) : Option Predicate.Leaf :=
  text.bind fun s => if HasText s then some ⟨field, .eq, .text s⟩ else none

/-- The comparison that a part of the criteria asks for. -/
def comparison? (c : Criteria) : Key → Option Predicate.Leaf
  | .username => textComparison? .username c.username
  | .teamName => textComparison? .teamName c.teamName
  | .minAge => c.minAge.map fun n => ⟨.age, .ge, .ofInt32 n⟩
  | .maxAge => c.maxAge.map fun n => ⟨.age, .le, .ofInt32 n⟩

theorem textComparison?_eq_some_iff {field : Field} {text : Option String} {leaf : Predicate.Leaf} :
    textComparison? field text = some leaf ↔ ∃ s, text = some s ∧ HasText s ∧ ⟨field, .eq, .text s⟩ = leaf := by
  simp [textComparison?, Option.bind_eq_some_iff]

/-- A part has a comparison when it asks for anything. -/
theorem isSome_comparison? (c : Criteria) (key : Key) : (c.comparison? key).isSome = true ↔ c.Asks key := by
  rw [Option.isSome_iff_exists]
  -- a text has to be more than blank to be asked for, an age only has to be there
  cases key with
  | username | teamName =>
    simp only [comparison?, textComparison?_eq_some_iff, Asks]
    constructor
    · rintro ⟨_, s, hs, htext, -⟩
      exact ⟨s, hs, htext⟩
    · rintro ⟨s, hs, htext⟩
      exact ⟨_, s, hs, htext, rfl⟩
  | minAge | maxAge => simp [comparison?, Asks]

/-! ## The filter as a conjunction of comparisons -/

theorem not_isBlank_iff (s : String) : (!Text.isBlank s) = true ↔ HasText s := by
  simp [Text.isBlank, HasText]

theorem isBlank_eq_false_iff (s : String) : Text.isBlank s = false ↔ HasText s := by
  rw [← not_isBlank_iff, Bool.not_eq_true']

theorem isBlank_eq_true_iff (s : String) : Text.isBlank s = true ↔ ¬HasText s := by
  rw [← isBlank_eq_false_iff, Bool.not_eq_false]

theorem textFilter_eq (field : Field) (text : Option String) :
    textFilter field text = (textComparison? field text).map Predicate.Leaf.predicate := by
  cases text with
  | none => rfl
  | some s =>
    have hasked : (some s).filter (!Text.isBlank ·) = if HasText s then some s else none := by
      rw [Option.filter_some]
      simp only [not_isBlank_iff]
    rw [textFilter, textComparison?, hasked, Option.bind_some]
    -- whether the text is blank was decided for the filter and for the comparison alike
    by_cases h : HasText s
    · rw [if_pos h, if_pos h]
      rfl
    · rw [if_neg h, if_neg h]
      rfl

/-- The filter is the conjunction of the comparisons that the parts ask for, in the order of the parts. -/
theorem filter_eq (c : Criteria) :
    c.filter = .allOf (Key.values.map fun key => (c.comparison? key).map Predicate.Leaf.predicate) := by
  rw [filter, usernameIs, teamNameIs, textFilter_eq, textFilter_eq]
  simp only [ageAtLeast, ageAtMost, Key.values, List.map_cons, List.map_nil, comparison?, Option.map_map]
  rfl

/-- The filter has the comparisons that the parts ask for, in the order of the parts. -/
theorem leaves_filter (c : Criteria) : c.filter.leaves = Key.values.filterMap c.comparison? := by
  -- the filters that are present are the comparisons, each as a predicate of its own
  have hpresent : Predicate.present (Key.values.map fun key => (c.comparison? key).map Predicate.Leaf.predicate) =
      (Key.values.filterMap c.comparison?).map Predicate.Leaf.predicate := by
    rw [Predicate.present, List.filterMap_map, List.map_filterMap]
    rfl
  rw [filter_eq, Predicate.leaves_allOf, hpresent, List.flatMap_map]
  simp

/-- There is one comparison for each part at most. -/
theorem length_leaves_filter_le (c : Criteria) : c.filter.leaves.length ≤ Key.values.length := by
  rw [leaves_filter]
  exact List.length_filterMap_le _ _

/-- The filter restricts nothing when no part asks for anything. -/
theorem filter_eq_always_iff (c : Criteria) : c.filter = .always ↔ ∀ key, ¬c.Asks key := by
  simp only [← isSome_comparison?, Option.not_isSome_iff_eq_none]
  constructor
  · intro h key
    -- there are no comparisons in it, and those of the parts would be there
    have hleaves := leaves_filter c
    rw [h, Predicate.leaves_always] at hleaves
    exact List.filterMap_eq_nil_iff.mp hleaves.symm key key.mem_values
  · intro h
    -- without comparisons all filters are absent, and their conjunction restricts nothing
    rw [filter_eq]
    simp only [h, Key.values, List.map_cons, List.map_nil, Option.map_none]
    rfl

theorem isUnfiltered_iff (c : Criteria) : c.isUnfiltered = true ↔ ∀ key, ¬c.Asks key := by
  rw [← filter_eq_always_iff, isUnfiltered]
  cases c.filter <;> simp [Predicate.isAlways]

/-! ## What the filter says of a line of the roster -/

theorem holds_predicate_iff (r : Record) (leaf : Predicate.Leaf) :
    leaf.predicate.holds r = true ↔
      Predicate.comparisonValuation leaf.op (r leaf.field) leaf.value = .yes := by
  rw [Predicate.holds_iff, Predicate.Leaf.predicate, Predicate.truth_compare, Predicate.compareTruth_eq_valuation]

theorem ofBool_eq_yes_iff (b : Bool) : Truth.ofBool b = .yes ↔ b = true := by
  cases b <;> decide

/-- A field has just the text. -/
theorem holds_text_iff (r : Record) (field : Field) (s : String) :
    (Predicate.Leaf.predicate ⟨field, .eq, .text s⟩).holds r = true ↔ r field = some (.text s) := by
  -- only a text that the record holds compares with a text
  rw [holds_predicate_iff]
  cases r field with
  | none => simp [Predicate.comparisonValuation]
  | some actual =>
    cases actual with
    | int n => simp [Predicate.comparisonValuation]
    | text t => simp [Predicate.comparisonValuation, ofBool_eq_yes_iff, Comparison.relates]

/-- The age of a line is compared as a number. -/
theorem holds_age_iff (entry : Entry) (op : Comparison) (n : Int32) :
    (Predicate.Leaf.predicate ⟨.age, op, .ofInt32 n⟩).holds entry.record = true ↔
      op.relates entry.age.toInt n.toInt = true := by
  rw [holds_predicate_iff]
  simp [Entry.record, Value.ofInt32, Predicate.comparisonValuation, ofBool_eq_yes_iff]

/-- A line satisfies the comparison of a part, if there is one. -/
theorem holds_filter_iff (c : Criteria) (r : Record) :
    c.filter.holds r = true ↔ ∀ key leaf, c.comparison? key = some leaf → leaf.predicate.holds r = true := by
  rw [filter_eq, Predicate.holds_allOf_iff]
  constructor
  · intro h key leaf hleaf
    -- every key is among those that the filter goes through
    apply h
    rw [List.mem_map]
    exact ⟨key, key.mem_values, by rw [hleaf]; rfl⟩
  · intro h p hp
    obtain ⟨key, -, hkey⟩ := List.mem_map.mp hp
    obtain ⟨leaf, hleaf, rfl⟩ := Option.map_eq_some_iff.mp hkey
    exact h key leaf hleaf

/-- The filter is satisfied by the lines that the criteria ask for. -/
theorem holds_filter_entry_iff (c : Criteria) (entry : Entry) :
    c.filter.holds entry.record = true ↔ c.Admits entry := by
  rw [holds_filter_iff]
  constructor
  -- one comparison for each part that is asked for, and each speaks about one field of the line
  · intro h
    constructor
    · intro s hs htext
      have hholds := h .username _ (textComparison?_eq_some_iff.mpr ⟨s, hs, htext, rfl⟩)
      rw [holds_text_iff] at hholds
      exact Value.text.inj (Option.some.inj hholds)
    · intro s hs htext
      -- the name of a team is compared with nothing if the member has no team
      have hholds := h .teamName _ (textComparison?_eq_some_iff.mpr ⟨s, hs, htext, rfl⟩)
      rw [holds_text_iff] at hholds
      obtain ⟨name, hname, heq⟩ := Option.map_eq_some_iff.mp hholds
      rw [hname, Value.text.inj heq]
    · intro n hn
      have hholds := h .minAge _ (Option.map_eq_some_iff.mpr ⟨n, hn, rfl⟩)
      rw [holds_age_iff] at hholds
      exact Int32.le_iff_toInt_le.mpr (of_decide_eq_true hholds)
    · intro n hn
      have hholds := h .maxAge _ (Option.map_eq_some_iff.mpr ⟨n, hn, rfl⟩)
      rw [holds_age_iff] at hholds
      exact Int32.le_iff_toInt_le.mpr (of_decide_eq_true hholds)
  · intro h key leaf hleaf
    cases key with
    | username =>
      obtain ⟨s, hs, htext, rfl⟩ := textComparison?_eq_some_iff.mp hleaf
      rw [holds_text_iff]
      exact congrArg (some ∘ Value.text) (h.username s hs htext)
    | teamName =>
      obtain ⟨s, hs, htext, rfl⟩ := textComparison?_eq_some_iff.mp hleaf
      rw [holds_text_iff]
      exact congrArg (Option.map Value.text) (h.teamName s hs htext)
    | minAge =>
      obtain ⟨n, hn, rfl⟩ := Option.map_eq_some_iff.mp hleaf
      rw [holds_age_iff]
      exact decide_eq_true (Int32.le_iff_toInt_le.mp (h.minAge n hn))
    | maxAge =>
      obtain ⟨n, hn, rfl⟩ := Option.map_eq_some_iff.mp hleaf
      rw [holds_age_iff]
      exact decide_eq_true (Int32.le_iff_toInt_le.mp (h.maxAge n hn))

/-- The filter of criteria is satisfied by just the lines of the roster that they ask for.  It restricts nothing, and
the search counts as unfiltered, exactly when no part asks for anything.  Its comparisons are those of the parts that
ask for something, one for each and in the order of the parts. -/
theorem filter_meaning (c : Criteria) :
    (∀ entry : Entry, c.filter.holds entry.record = true ↔ c.Admits entry) ∧
    (c.filter = .always ↔ ∀ key, ¬c.Asks key) ∧
    (c.isUnfiltered = true ↔ ∀ key, ¬c.Asks key) ∧
    c.filter.leaves = [Key.username, .teamName, .minAge, .maxAge].filterMap c.comparison? ∧
    ∀ key, (c.comparison? key).isSome = true ↔ c.Asks key :=
  ⟨c.holds_filter_entry_iff, c.filter_eq_always_iff, c.isUnfiltered_iff, c.leaves_filter, c.isSome_comparison?⟩

/-- Bounds that no age meets ask for two comparisons nevertheless, and a blank name for none. -/
example : filter ⟨some " \t", none, some 40, some 10⟩ =
    .all [.compare .age .ge (.int 40), .compare .age .le (.int 10)] := by rfl

end Roster.Criteria
