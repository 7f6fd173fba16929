import Mathlib.Data.List.Induction
import Mathlib.Data.List.Nodup
import Roster.Member
import Roster.Proofs.Predicate.Leaves

/-! # The fields in a predicate

The fields of a predicate are those of its comparisons, however deep these stand: each of them once, and in the order
in which they appear from left to right.  What a predicate says of a record depends on these fields alone.

* `fields_eq`: the list of fields as the list of comparisons without repetitions.
* `mem_fields_iff`, `nodup_fields`, `fields_of_first`: which fields are in it, that none is in it twice, and their order.
* `truth_congr`: records that agree on the fields are the same to the predicate.
* `referencesTeam_iff`: whether one of the fields belongs to the team.
* `truth_fields`: all this together, and what follows for a member beside lines of the roster.
-/

namespace Roster

/-! ## Lists without repetitions -/

section Repetitions

variable {α : Type} [BEq α] [LawfulBEq α]

/-- One more element is dropped if it has been there before. -/
theorem eraseDups_concat (as : List α) (a : α) :
    (as ++ [a]).eraseDups = if as.contains a then as.eraseDups else as.eraseDups ++ [a] := by
  rw [List.eraseDups_append, List.cons_removeAll]
  cases as.contains a with
  | true => exact List.append_nil _
  | false => rfl

theorem nodup_eraseDups (as : List α) : as.eraseDups.Nodup := by
  -- by induction from the end, where the last element is kept or not
  induction as using List.reverseRecOn with
  | nil => exact List.nodup_nil
  | append_singleton as a ih =>
    rw [eraseDups_concat]
    split
    case isTrue => exact ih
    case isFalse hnew =>
      rw [List.contains_iff_mem, ← List.mem_eraseDups] at hnew
      rw [List.nodup_append]
      refine ⟨ih, List.nodup_singleton a, ?_⟩
      rintro b hb c hc rfl
      rw [List.mem_singleton] at hc
      exact hnew (hc ▸ hb)

/-- What stands before an element at its first place also stands before it without repetitions. -/
theorem eraseDups_append_cons {before : List α} {a : α} (hfirst : a ∉ before) (after : List α) :
    ∃ rest, (before ++ a :: after).eraseDups = before.eraseDups ++ a :: rest := by
  have hnew : before.contains a = false := by
    rw [Bool.eq_false_iff, Ne, List.contains_iff_mem]
    exact hfirst
  rw [List.eraseDups_append, List.cons_removeAll, hnew, if_pos rfl, List.eraseDups_cons]
  exact ⟨_, rfl⟩

end Repetitions

namespace Predicate

variable {p : Predicate} {field : Field}

/-! ## The list of fields -/

/-- The fields of the comparisons, from left to right, with repetitions. -/
def leafFields (p : Predicate) : List Field :=
  p.leaves.map (·.field)

theorem fieldsAfterAll_eraseDups {terms : List Predicate}
    (h : ∀ term ∈ terms, ∀ before : List Field,
      fieldsAfter before.eraseDups term = (before ++ term.leafFields).eraseDups) (before : List Field) :
    fieldsAfterAll before.eraseDups terms = (before ++ (terms.flatMap leaves).map (·.field)).eraseDups := by
  -- by induction on the terms, each of which begins with the fields of all terms before it
  induction terms generalizing before with
  | nil => rw [fieldsAfterAll, List.flatMap_nil, List.map_nil, List.append_nil]
  | cons term terms ih =>
    rw [List.forall_mem_cons] at h
    rw [fieldsAfterAll, h.1, ih h.2, List.flatMap_cons, List.map_append, List.append_assoc]
    rfl

/-- A predicate adds the fields of its comparisons to those before, and skips what has been there. -/
theorem fieldsAfter_eraseDups (p : Predicate) (before : List Field) :
    fieldsAfter before.eraseDups p = (before ++ p.leafFields).eraseDups := by
  -- the fields seen before are those of earlier terms, so they have to be general here
  induction p using Predicate.induct generalizing before with
  | always => rw [fieldsAfter, leafFields, leaves_always, List.map_nil, List.append_nil]
  | compare field op value =>
    have hseen : before.eraseDups.contains field = before.contains field := by
      rw [Bool.eq_iff_iff, List.contains_iff_mem, List.contains_iff_mem, List.mem_eraseDups]
    rw [fieldsAfter, leafFields, leaves, List.map_singleton, eraseDups_concat, hseen]
  | all terms ih =>
    rw [fieldsAfter, leafFields, leaves_all]
    exact fieldsAfterAll_eraseDups ih before
  | any terms ih =>
    rw [fieldsAfter, leafFields, leaves_any]
    exact fieldsAfterAll_eraseDups ih before
  | not term ih => rw [fieldsAfter, ih, leafFields, leafFields, leaves_not]

/-- The fields are those of the comparisons, each at its first place. -/
theorem fields_eq (p : Predicate) : p.fields = p.leafFields.eraseDups :=
  fieldsAfter_eraseDups p []

theorem mem_fields_iff : field ∈ p.fields ↔ ∃ leaf ∈ p.leaves, leaf.field = field := by
  rw [fields_eq, List.mem_eraseDups, leafFields, List.mem_map]

theorem nodup_fields (p : Predicate) : p.fields.Nodup := by
  rw [fields_eq]
  exact nodup_eraseDups _

/-- Before a field stand the fields of the comparisons before its first one. -/
theorem fields_of_first {before after : List Leaf} {leaf : Leaf} (hleaves : p.leaves = before ++ leaf :: after)
    (hfirst : leaf.field ∉ before.map (·.field)) :
    ∃ front rest, p.fields = front ++ leaf.field :: rest ∧ ∀ field, field ∈ front ↔ field ∈ before.map (·.field) := by
  rcases eraseDups_append_cons hfirst (after.map (·.field)) with ⟨rest, hrest⟩
  refine ⟨_, rest, ?_, fun field => List.mem_eraseDups⟩
  rw [fields_eq, leafFields, hleaves, List.map_append, List.map_cons, hrest]

/-! ## Fields of the team -/

/-- A predicate looks at the team when one of its comparisons does. -/
theorem referencesTeam_iff : p.referencesTeam = true ↔ ∃ leaf ∈ p.leaves, leaf.field.entity = .team := by
  simp only [referencesTeam, List.any_eq_true, beq_iff_eq, mem_fields_iff]
  constructor
  · rintro ⟨field, ⟨leaf, hleaf, rfl⟩, hteam⟩
    exact ⟨leaf, hleaf, hteam⟩
  · rintro ⟨leaf, hleaf, hteam⟩
    exact ⟨leaf.field, ⟨leaf, hleaf, rfl⟩, hteam⟩

end Predicate

/-! ## Records that agree -/

/-- The records have the same values in these fields, or none. -/
def Record.AgreeOn (fields : List Field) (r s : Record) : Prop :=
  ∀ field ∈ fields, r field = s field

/-- A member and a line of the roster for that member agree on the fields that do not belong to the team. -/
theorem Member.agreeOn_entry {member : Member} {entry : Entry} (hid : entry.memberId = member.id)
    (husername : entry.username = member.username) (hage : entry.age = member.age) {fields : List Field}
    (hfields : ∀ field ∈ fields, field.entity ≠ .team) : Record.AgreeOn fields member.record entry.record := by
  intro field hfield
  -- the two fields of the team are the only ones in which the records may differ
  cases field with
  | memberId => exact congrArg (some ∘ Value.int) hid.symm
  | username => exact congrArg (some ∘ Value.text) husername.symm
  | age => exact congrArg (some ∘ Value.ofInt32) hage.symm
  | teamId | teamName => exact absurd rfl (hfields _ hfield)

namespace Predicate

variable {p : Predicate} {r s : Record}

/-- A predicate whose comparisons look at fields with the same values has the same truth. -/
theorem truth_eq_of_leaves (h : ∀ leaf ∈ p.leaves, r leaf.field = s leaf.field) : truth r p = truth s p := by
  -- the truth of a group depends on that of its terms only
  have hgroup : ∀ terms : List Predicate,
      (∀ term ∈ terms, (∀ leaf ∈ term.leaves, r leaf.field = s leaf.field) → truth r term = truth s term) →
      (∀ leaf ∈ terms.flatMap leaves, r leaf.field = s leaf.field) → terms.map (truth r) = terms.map (truth s) := by
    intro terms ih hleaves
    refine List.map_congr_left fun term hterm => ih term hterm fun leaf hleaf => ?_
    exact hleaves leaf (List.mem_flatMap_of_mem hterm hleaf)
  induction p using Predicate.induct with
  | always => rw [truth_always, truth_always]
  | compare field op value =>
    rw [leaves, List.forall_mem_singleton] at h
    rw [truth_compare, truth_compare, compareTruth, compareTruth, h]
  | all terms ih =>
    rw [leaves_all] at h
    rw [truth_all, truth_all, hgroup terms ih h]
  | any terms ih =>
    rw [leaves_any] at h
    rw [truth_any, truth_any, hgroup terms ih h]
  | not term ih =>
    rw [leaves_not] at h
    rw [truth_not, truth_not, ih h]

/-- A predicate has the same truth on records that agree on its fields. -/
theorem truth_congr (h : Record.AgreeOn p.fields r s) : truth r p = truth s p :=
  truth_eq_of_leaves fun leaf hleaf => h leaf.field (mem_fields_iff.mpr ⟨leaf, hleaf, rfl⟩)

/-- The fields of a predicate are those of its comparisons.  None is listed twice, and before each of them stand the
fields of the comparisons before its first one.  Records that agree on these fields have the same truth.  So a predicate
that does not look at the team has the same truth on a member and on every line with the member's id, name and age,
whatever the team of either. -/
theorem truth_fields (p : Predicate) :
    (∀ field, field ∈ p.fields ↔ ∃ leaf ∈ p.leaves, leaf.field = field) ∧
    p.fields.Nodup ∧
    (∀ before leaf after, p.leaves = before ++ leaf :: after → leaf.field ∉ before.map (·.field) →
      ∃ front rest, p.fields = front ++ leaf.field :: rest ∧
        ∀ field, field ∈ front ↔ field ∈ before.map (·.field)) ∧
    (∀ r s : Record, r.AgreeOn p.fields s → truth r p = truth s p) ∧
    (p.referencesTeam = false → ∀ (member : Member) (entry : Entry), entry.memberId = member.id →
      entry.username = member.username → entry.age = member.age →
      truth member.record p = truth entry.record p) := by
  refine ⟨fun _ => mem_fields_iff, p.nodup_fields, fun _ _ _ => fields_of_first, fun _ _ => truth_congr, ?_⟩
  intro hteam member entry hid husername hage
  refine truth_congr (Member.agreeOn_entry hid husername hage ?_)
  intro field hfield hentity
  -- a field of the team would come from some comparison
  rcases mem_fields_iff.mp hfield with ⟨leaf, hleaf, rfl⟩
  have hreferences : p.referencesTeam = true := referencesTeam_iff.mpr ⟨leaf, hleaf, hentity⟩
  rw [hteam] at hreferences
  cases hreferences

/-- A comparison under a negation, one of a field that has been there before, and one in a later term that is not looked
at when the first one fails: all of them count, and what the team is does not. -/
theorem truth_fields_nested :
    let ofAge : Leaf := ⟨.age, .ge, .int 18⟩
    let named : Leaf := ⟨.username, .eq, .text "Ada"⟩
    let young : Leaf := ⟨.age, .lt, .int 30⟩
    let stored : Leaf := ⟨.memberId, .ne, .int 0⟩
    let p := Predicate.all [.not (.any [ofAge.predicate, named.predicate]), .any [young.predicate, stored.predicate]]
    let r := Record.ofList [(.age, .int 17), (.username, .text "Bo"), (.teamName, .text "teamA")]
    let s := Record.ofList [(.age, .int 17), (.username, .text "Bo"), (.teamId, .int 2)]
    let member : Member := ⟨7, "Bo", 17, some 1⟩
    let entry : Entry := ⟨7, "Bo", 17, none, some "teamB"⟩
    p.leaves = [ofAge, named, young] ++ stored :: [] ∧ stored.field ∉ [ofAge, named, young].map (·.field) ∧
      (∃ front rest, p.fields = front ++ .memberId :: rest ∧
        ∀ field, field ∈ front ↔ field ∈ [ofAge, named, young].map (·.field)) ∧
      p.fields = [.age, .username, .memberId] ∧ r.AgreeOn p.fields s ∧ truth r p = truth s p ∧
      p.referencesTeam = false ∧ entry.memberId = member.id ∧ entry.username = member.username ∧
      entry.age = member.age ∧ truth member.record p = truth entry.record p := by
  intro ofAge named young stored p r s member entry
  have hleaves : p.leaves = [ofAge, named, young] ++ stored :: [] := by decide
  have hfirst : stored.field ∉ [ofAge, named, young].map (·.field) := by decide
  have hfields : p.fields = [.age, .username, .memberId] := by decide
  have hagree : r.AgreeOn p.fields s := by
    rw [hfields]
    -- the records differ in the fields of the team alone
    intro field hfield
    cases field with
    | age | username | memberId => rfl
    | teamId | teamName => exact absurd hfield (by decide)
  have hteam : p.referencesTeam = false := by decide
  obtain ⟨-, -, horder, hrecords, hmembers⟩ := truth_fields p
  exact ⟨hleaves, hfirst, horder _ _ _ hleaves hfirst, hfields, hagree, hrecords r s hagree, hteam, rfl, rfl, rfl,
    hmembers hteam member entry rfl rfl rfl⟩

end Predicate

end Roster
