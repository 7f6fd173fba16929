import Roster.Proofs.Integer
import Roster.Proofs.Json.Basic

/-! # Documents in another order

The entries of an object have no order: what keeps a document may hand it back with the entries of its objects in another
order than that in which they were written.  Something is read back when it is read from all of these documents.

* `Json.Reordered`: the same document but for the order of entries, in any object at any depth.
* `Json.Reordered.of_object`: under each name both objects have the same value, or none.
* `Json.Omits`, `Json.HasNull`: how an object shows that something is missing.
* `Json.ReadsBack`: a reader that gives back what a writer has written.
* `Json.required_of_found`, `Json.withDefault_of_found`, `Json.nullable_of_found`: the fields of records.
-/

namespace Roster.Json

/-- The second document is the first one with the entries of objects in any order, at any depth. -/
inductive Reordered : Json → Json → Prop where
  | same (j : Json) : Reordered j j
  | list {items items' : List Json} (h : List.Forall₂ Reordered items items') :
      Reordered (.list items) (.list items')
  | object {entries entries' : List (String × Json)} {values : List Json}
      (hvalues : List.Forall₂ Reordered (entries.map Prod.snd) values)
      (horder : ((entries.map Prod.fst).zip values).Perm entries') : Reordered (.object entries) (.object entries')

/-- Under the name stands what was written there, but for the order of entries in it; or nothing, if nothing was. -/
abbrev Found (entries : List (String × Json)) (name : String) (written : Option Json) : Prop :=
  Option.Rel Reordered written (entries.lookup name)

variable {entries : List (String × Json)} {name : String} {j : Json}

/-! ## Inversion -/

theorem Reordered.of_null (h : Reordered .null j) : j = .null := by
  cases h
  rfl

theorem Reordered.of_int {n : Int} (h : Reordered (.int n) j) : j = .int n := by
  cases h
  rfl

theorem Reordered.of_text {s : String} (h : Reordered (.text s) j) : j = .text s := by
  cases h
  rfl

theorem Reordered.of_list {items : List Json} (h : Reordered (.list items) j) :
    ∃ items', j = .list items' ∧ List.Forall₂ Reordered items items' := by
  rcases h with _ | h
  · exact ⟨items, rfl, List.forall₂_same.mpr fun item _ => .same item⟩
  · exact ⟨_, rfl, h⟩

/-- Only null is null in another order. -/
theorem Reordered.to_null (h : Reordered j .null) : j = .null := by
  cases h
  rfl

/-! ## Objects -/

theorem lookup_eq_none_iff_not_mem : entries.lookup name = none ↔ name ∉ entries.map Prod.fst := by
  rw [List.lookup_eq_none_iff]
  constructor
  -- a name among the names belongs to some entry, which the lookup would find
  · intro h hname
    rcases List.mem_map.mp hname with ⟨entry, hentry, heq⟩
    exact bne_iff_ne.mp (h entry hentry) heq.symm
  · intro h entry hentry
    rw [bne_iff_ne]
    rintro rfl
    exact h (List.mem_map_of_mem hentry)

theorem mem_of_lookup_eq_some {value : Json} (h : entries.lookup name = some value) : (name, value) ∈ entries := by
  rcases List.lookup_eq_some_iff.mp h with ⟨before, after, rfl, -⟩
  exact List.mem_append_right before List.mem_cons_self

/-- In another order, an object has the same value under each name. -/
theorem Reordered.of_object (h : Reordered (.object entries) j) (hnames : (entries.map Prod.fst).Nodup) :
    ∃ entries', j = .object entries' ∧ ∀ name, Found entries' name (entries.lookup name) := by
  -- nothing has been moved, or the entries stand in another order, each with its own value moved inside
  rcases h with _ | _ | @⟨_, entries', values, hvalues, horder⟩
  · refine ⟨entries, rfl, ?_⟩
    intro name
    rcases hlookup : entries.lookup name with _ | value
    · rw [Found, hlookup]
      exact .none
    · rw [Found, hlookup]
      exact .some (.same value)
  · refine ⟨entries', rfl, ?_⟩
    intro name
    have hlength : (entries.map Prod.fst).length = values.length := by
      rw [← hvalues.length_eq, List.length_map, List.length_map]
    have hkept : ((entries.map Prod.fst).zip values).map Prod.fst = entries.map Prod.fst :=
      List.map_fst_zip (Nat.le_of_eq hlength)
    rcases hlookup : entries.lookup name with _ | value
    · -- the names are the same, so what is missing is missing still
      have hnone : entries'.lookup name = none := by
        rw [lookup_eq_none_iff_not_mem, ← (horder.map Prod.fst).mem_iff, hkept]
        exact lookup_eq_none_iff_not_mem.mp hlookup
      rw [Found, hnone]
      exact .none
    · rcases exists_mem_zip hvalues (mem_of_lookup_eq_some hlookup) with ⟨value', hmem, hvalue⟩
      have hsome : entries'.lookup name = some value' := by
        -- the name occurs once, so the lookup finds this value and no other
        apply lookup_eq_some_of_mem (horder.mem_iff.mp hmem)
        intro other hother
        exact eq_of_mem_of_nodup (hkept.symm ▸ hnames) hmem (horder.mem_iff.mpr hother)
      rw [Found, hsome]
      exact .some hvalue

/-! ## Entries that may be missing -/

section EntryOf

variable {α : Type} {write : α → Json}

/-- What is missing has no entry. -/
theorem lookup_entryOf (name : String) (write : α → Json) (o : Option α) :
    (entryOf name write o).lookup name = o.map write := by
  rcases o with _ | a
  · rfl
  · exact List.lookup_cons_self

theorem lookup_entryOf_of_ne {key : String} (h : key ≠ name) (o : Option α) :
    (entryOf name write o).lookup key = none := by
  rcases o with _ | a
  · rfl
  · rw [entryOf, List.lookup_cons, beq_false_of_ne h]
    rfl

/-- An entry that may be missing, after others under other names. -/
theorem lookup_append_entryOf {base : List (String × Json)} (h : base.lookup name = none) (write : α → Json)
    (o : Option α) : (base ++ entryOf name write o).lookup name = o.map write := by
  rw [List.lookup_append, h, Option.none_or, lookup_entryOf]

theorem names_entryOf (name : String) (write : α → Json) (o : Option α) :
    ((entryOf name write o).map Prod.fst).Sublist [name] := by
  rcases o with _ | a
  · exact List.nil_sublist _
  · exact List.Sublist.refl _

theorem nodup_append_entryOf {base : List (String × Json)} (h : (base.map Prod.fst ++ [name]).Nodup)
    (write : α → Json) (o : Option α) : ((base ++ entryOf name write o).map Prod.fst).Nodup := by
  rw [List.map_append]
  exact h.sublist ((List.Sublist.refl _).append (names_entryOf name write o))

end EntryOf

/-! ## What is missing -/

/-- The document is an object without an entry under the name. -/
def Omits (name : String) (j : Json) : Prop :=
  ∃ entries, j = .object entries ∧ entries.lookup name = none

/-- The document is an object with null under the name. -/
def HasNull (name : String) (j : Json) : Prop :=
  ∃ entries, j = .object entries ∧ entries.lookup name = some .null

/-- What holds of the entries of some object that is this one holds of its entries. -/
theorem exists_entries_iff {p : List (String × Json) → Prop} :
    (∃ entries', object entries = object entries' ∧ p entries') ↔ p entries := by
  constructor
  · rintro ⟨_, heq, h⟩
    rwa [object.inj heq]
  · intro h
    exact ⟨entries, rfl, h⟩

theorem omits_object_iff : (object entries).Omits name ↔ entries.lookup name = none := exists_entries_iff

theorem hasNull_object_iff : (object entries).HasNull name ↔ entries.lookup name = some .null := exists_entries_iff

variable {α : Type} {write : α → Json}

theorem omits_append_entryOf_iff {base : List (String × Json)} (h : base.lookup name = none) (o : Option α) :
    (object (base ++ entryOf name write o)).Omits name ↔ o = none := by
  rw [omits_object_iff, lookup_append_entryOf h, Option.map_eq_none_iff]

theorem ofOption_eq_null_iff (hnull : ∀ a, write a ≠ .null) {o : Option α} : ofOption write o = .null ↔ o = none := by
  rcases o with _ | a
  · exact ⟨fun _ => rfl, fun _ => rfl⟩
  · exact ⟨fun h => absurd h (hnull a), nofun⟩

theorem hasNull_ofOption_iff (hnull : ∀ a, write a ≠ .null) {o : Option α}
    (h : entries.lookup name = some (ofOption write o)) : (object entries).HasNull name ↔ o = none := by
  rw [hasNull_object_iff, h, Option.some_inj, ofOption_eq_null_iff hnull]

theorem ofInt64_ne_null (n : Int64) : ofInt64 n ≠ .null := nofun

theorem text_ne_null (s : String) : Json.text s ≠ .null := nofun

/-! ## Reading what has been written -/

/-- What is written is read from its document, in whatever order the entries of the objects in it stand. -/
def ReadsBack {α : Type} (write : α → Json) (read : Json → Option α) : Prop :=
  ∀ a j, Reordered (write a) j → read j = some a

variable {read : Json → Option α}

theorem readsBack_int64 : ReadsBack ofInt64 int64? := by
  intro n j h
  rw [h.of_int]
  exact Integer.to64?_eq_some_iff.mpr rfl

theorem readsBack_int32 : ReadsBack ofInt32 int32? := by
  intro n j h
  rw [h.of_int]
  exact Integer.to32?_eq_some_iff.mpr rfl

theorem readsBack_text : ReadsBack .text text? := by
  intro s j h
  rw [h.of_text]
  rfl

/-- Something that is written as its name is read back when it is known under that name. -/
theorem readsBack_choice {name : α → String} {named? : String → Option α} (h : ∀ a, named? (name a) = some a) :
    ReadsBack (fun a => .text (name a)) fun j => j.choice?.bind named? := by
  intro a j hj
  rw [hj.of_text]
  exact h a

/-- A list is read back when its items are. -/
theorem readsBack_list (h : ReadsBack write read) : ReadsBack (fun as => .list (as.map write)) (list? read) := by
  intro as j hj
  rcases hj.of_list with ⟨items, rfl, hitems⟩
  clear hj
  -- the items are read one by one, and each reads as what it was written for
  show items.mapM read = some as
  induction as generalizing items with
  | nil =>
    rcases hitems with _ | _
    rfl
  | cons a as ih =>
    rcases hitems with _ | ⟨hfirst, hrest⟩
    rw [List.mapM_cons, h a _ hfirst, ih _ hrest]
    rfl

/-- What may be null is read back, unless something else is written as null, too. -/
theorem readsBack_orNull (h : ReadsBack write read) (hnull : ∀ a, write a ≠ .null) :
    ReadsBack (ofOption write) (orNull? read) := by
  intro o j hj
  -- what is missing is null, and nothing that is present is written as null
  rcases o with _ | a
  · rw [hj.of_null]
    rfl
  · unfold orNull?
    split
    · exact absurd hj.to_null (hnull a)
    · rw [h a j hj, Option.map_some]

/-! ## Fields of records -/

theorem Found.of_some {value : Json} (h : Found entries name (some value)) :
    ∃ j, entries.lookup name = some j ∧ Reordered value j := by
  unfold Found at h
  generalize entries.lookup name = found at h
  rcases h with ⟨hvalue⟩
  exact ⟨_, rfl, hvalue⟩

theorem Found.of_none (h : Found entries name none) : entries.lookup name = none := by
  unfold Found at h
  generalize entries.lookup name = found at h
  cases h
  rfl

theorem get?_byName (place : Nat) : (Fields.byName entries).get? place name = entries.lookup name := rfl

theorem required_of_found (place : Nat) {a : α} (hread : ReadsBack write read)
    (h : Found entries name (some (write a))) : (Fields.byName entries).required place name read = some a := by
  rcases h.of_some with ⟨j, hlookup, hj⟩
  rw [Fields.required, get?_byName, hlookup, Option.bind_some, hread a j hj]

/-- A field is read back from its entry; if it has the default, the entry may have been left out. -/
theorem withDefault_of_found (place : Nat) (default : α) {a : α} {written : Option Json} (hread : ReadsBack write read)
    (h : Found entries name written) (hwritten : written = some (write a) ∨ written = none ∧ a = default) :
    (Fields.byName entries).withDefault place name default read = some a := by
  rw [Fields.withDefault, get?_byName]
  -- the name is there with a value, or it is left out and the default is that value
  rcases hwritten with rfl | ⟨rfl, rfl⟩
  · rcases h.of_some with ⟨j, hlookup, hj⟩
    rw [hlookup]
    exact hread a j hj
  · rw [h.of_none]

/-- A field that may be missing is read back from its entry; if it is missing, the entry may have been left out. -/
theorem nullable_of_found (place : Nat) {o : Option α} {written : Option Json} (hread : ReadsBack write read)
    (hnull : ∀ a, write a ≠ .null) (h : Found entries name written)
    (hwritten : written = some (ofOption write o) ∨ written = none ∧ o = none) :
    (Fields.byName entries).nullable place name read = some o := by
  unfold Fields.nullable
  rw [get?_byName]
  -- the name is there, perhaps with null, or it is left out
  rcases hwritten with rfl | ⟨rfl, rfl⟩
  · rcases h.of_some with ⟨j, hlookup, hj⟩
    rw [hlookup]
    exact readsBack_orNull hread hnull o j hj
  · rw [h.of_none]

/-- What is left out when it is missing has an entry otherwise. -/
theorem written_or_missing (write : α → Json) (o : Option α) :
    o.map write = some (ofOption write o) ∨ o.map write = none ∧ o = none := by
  rcases o with _ | a
  · exact .inr ⟨rfl, rfl⟩
  · exact .inl rfl

end Roster.Json
