import Mathlib.Data.List.Forall2
import Mathlib.Data.List.Nodup
import Roster.Json.Basic

/-! # Documents that say the same

The order of the entries of an object and entries under further names have no effect on what is read from it.

* `Json.Extends`: the same document with the entries of objects in any order and with further entries, at any depth.
* `Json.Extends.of_object`: what is found in an object is found in every object that extends it.
-/

namespace Roster.Json

/-- The second document is the first one with the entries of objects in any order, and with further entries under names
that the object does not have, at any depth. -/
inductive Extends : Json → Json → Prop where
  | same (j : Json) : Extends j j
  | list {items items' : List Json} (h : List.Forall₂ Extends items items') : Extends (.list items) (.list items')
  | object {entries added entries' : List (String × Json)} {values : List Json}
      (hvalues : List.Forall₂ Extends (entries.map Prod.snd) values)
      (hadded : ∀ entry ∈ added, entry.1 ∉ entries.map Prod.fst)
      (horder : ((entries.map Prod.fst).zip values ++ added).Perm entries') :
      Extends (.object entries) (.object entries')

variable {entries : List (String × Json)} {name : String} {value : Json}

/-! ## Entries by their names -/

/-- The only entry under a name is found. -/
theorem lookup_eq_some_of_mem (hmem : (name, value) ∈ entries)
    (hunique : ∀ other, (name, other) ∈ entries → other = value) : entries.lookup name = some value := by
  induction entries with
  | nil => exact absurd hmem List.not_mem_nil
  | cons entry entries ih =>
    rcases entry with ⟨key, first⟩
    rw [List.lookup_cons]
    -- the first entry of that name decides, and all entries of that name have the same value
    by_cases hkey : name = key
    · have hfirst : first = value := hunique first (hkey ▸ List.mem_cons_self)
      rw [hkey, beq_self_eq_true, hfirst]
    · have hrest : (name, value) ∈ entries := by
        rcases List.mem_cons.mp hmem with heq | hrest
        · exact absurd (congrArg Prod.fst heq) hkey
        · exact hrest
      rw [beq_false_of_ne hkey]
      exact ih hrest fun other hother => hunique other (List.mem_cons_of_mem _ hother)

/-- Under different names there is one entry at most for each. -/
theorem eq_of_mem_of_nodup (hnames : (entries.map Prod.fst).Nodup) {other : Json} (hmem : (name, value) ∈ entries)
    (hother : (name, other) ∈ entries) : other = value := by
  have heq : (name, other) = (name, value) := List.inj_on_of_nodup_map hnames hother hmem rfl
  exact congrArg Prod.snd heq

/-- What is related to the values of entries takes their places under the same names. -/
theorem exists_mem_zip {related : Json → Json → Prop} {values : List Json}
    (hvalues : List.Forall₂ related (entries.map Prod.snd) values) (hmem : (name, value) ∈ entries) :
    ∃ value', (name, value') ∈ (entries.map Prod.fst).zip values ∧ related value value' := by
  induction entries generalizing values with
  | nil => exact absurd hmem List.not_mem_nil
  | cons entry entries ih =>
    -- the lists are as long as each other, so the second one has a first value too
    rcases hvalues with _ | ⟨hfirst, hrest⟩
    rcases List.mem_cons.mp hmem with rfl | hmem
    · exact ⟨_, List.mem_cons_self, hfirst⟩
    · rcases ih hrest hmem with ⟨value', hmem', hvalue⟩
      exact ⟨value', List.mem_cons_of_mem _ hmem', hvalue⟩

/-! ## Something put into a list -/

/-- What is put in under a new name is found. -/
theorem lookup_put {before after : List (String × Json)} (hnew : name ∉ (before ++ after).map Prod.fst) :
    (before ++ (name, value) :: after).lookup name = some value := by
  -- no entry before it has the name, so the lookup comes as far as the new one
  have hnone : before.lookup name = none := by
    rw [List.lookup_eq_none_iff]
    intro entry hentry
    rw [bne_iff_ne]
    rintro rfl
    exact hnew (List.mem_map_of_mem (List.mem_append_left after hentry))
  rw [List.lookup_append, hnone, List.lookup_cons_self, Option.none_or]

/-- It is not found under another name. -/
theorem lookup_put_of_ne {other : String} (hne : other ≠ name) (before after : List (String × Json)) :
    (before ++ (name, value) :: after).lookup other = (before ++ after).lookup other := by
  rw [List.lookup_append, List.lookup_append, List.lookup_cons, beq_false_of_ne hne]

theorem getElem?_put {α : Type} (before after : List α) (a : α) :
    (before ++ a :: after)[before.length]? = some a := by
  rw [List.getElem?_append_right (Nat.le_refl _), Nat.sub_self, List.getElem?_cons_zero]

/-- Only one place of a list depends on what stands there. -/
theorem getElem?_put_of_ne {α : Type} {place : Nat} {before : List α} (hne : place ≠ before.length) (after : List α)
    (a b : α) : (before ++ a :: after)[place]? = (before ++ b :: after)[place]? := by
  rw [List.getElem?_append, List.getElem?_append]
  -- the places behind the new value count on from it
  split
  case isTrue => rfl
  case isFalse hle =>
    have hpos : place - before.length ≠ 0 := by omega
    rw [List.getElem?_cons, List.getElem?_cons, if_neg hpos, if_neg hpos]

/-! ## Inversion -/

theorem Extends.of_text {s : String} {j : Json} (h : Extends (.text s) j) : j = .text s := by
  cases h
  rfl

theorem Extends.of_int {n : Int} {j : Json} (h : Extends (.int n) j) : j = .int n := by
  cases h
  rfl

theorem Extends.of_list {items : List Json} {j : Json} (h : Extends (.list items) j) :
    ∃ items', j = .list items' ∧ List.Forall₂ Extends items items' := by
  rcases h with _ | h
  · exact ⟨items, rfl, List.forall₂_same.mpr fun item _ => .same item⟩
  · exact ⟨_, rfl, h⟩

/-- What is found under a name in an object is found under the same name in an object that extends it. -/
theorem Extends.of_object {j : Json} (hnames : (entries.map Prod.fst).Nodup) (h : Extends (.object entries) j) :
    ∃ entries', j = .object entries' ∧ ∀ name value, (name, value) ∈ entries →
      ∃ value', entries'.lookup name = some value' ∧ Extends value value' := by
  rcases h with _ | _ | @⟨_, added, entries', values, hvalues, hadded, horder⟩
  · refine ⟨entries, rfl, ?_⟩
    intro name value hmem
    exact ⟨value, lookup_eq_some_of_mem hmem fun _ => eq_of_mem_of_nodup hnames hmem, .same value⟩
  · refine ⟨entries', rfl, ?_⟩
    intro name value hmem
    have hlength : (entries.map Prod.fst).length = values.length := by
      rw [← hvalues.length_eq, List.length_map, List.length_map]
    have hkept : ((entries.map Prod.fst).zip values).map Prod.fst = entries.map Prod.fst :=
      List.map_fst_zip (Nat.le_of_eq hlength)
    -- the value has been replaced by one that extends it, under the same name
    rcases exists_mem_zip hvalues hmem with ⟨value', hmem', hvalue⟩
    refine ⟨value', ?_, hvalue⟩
    apply lookup_eq_some_of_mem
    · exact horder.mem_iff.mp (List.mem_append_left _ hmem')
    -- the names are all different, and those that were added are others again
    · intro other hother
      rcases List.mem_append.mp (horder.mem_iff.mpr hother) with hold | hnew
      · exact eq_of_mem_of_nodup (hkept.symm ▸ hnames) hmem' hold
      · have hname : name ∈ entries.map Prod.fst := List.mem_map_of_mem hmem
        exact absurd hname (hadded _ hnew)

end Roster.Json
