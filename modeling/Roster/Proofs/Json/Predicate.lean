import Roster.Json.Predicate
import Roster.Proofs.Integer
import Roster.Proofs.Json.Basic
import Roster.Proofs.Predicate.Truth

/-! # Predicates read back from documents

A predicate is read back from its document, and from every document that extends it: in any object at any depth the
entries may stand in another order, and there may be entries under names that the kind of predicate does not have.

* `Predicate.read?_of_kind`: reading an object is decided by the entries that its kind needs.
* `Predicate.read?_extends`: what is read from a document that extends that of a predicate, at any depth.
* `Predicate.ofJson?_toJson_extends`: the same for a predicate that stands alone.
-/

namespace Roster

/-! ## Names and values -/

theorem Field.named?_name (field : Field) : Field.named? field.name = some field := by
  cases field <;> decide

theorem Comparison.named?_name (op : Comparison) : Comparison.named? op.name = some op := by
  cases op <;> decide

theorem Value.ofJson?_toJson (value : Value) : Value.ofJson? value.toJson = some value := by
  rcases value with n | s
  · show (Integer.to64? n.toInt).map Value.int = some (.int n)
    rw [Integer.to64?_eq_some_iff.mpr rfl, Option.map_some]
  · rfl

/-- A value has no objects in it. -/
theorem Value.extends_toJson {value : Value} {j : Json} (h : Json.Extends value.toJson j) : j = value.toJson := by
  rcases value with n | s
  · exact h.of_int
  · exact h.of_text

namespace Predicate

variable {inner : Bool} {entries : List (String × Json)}

/-! ## Reading an object -/

theorem Kind.ofJson?_name (inner : Bool) (kind : Kind) : Kind.ofJson? inner (.text kind.name) = some kind := by
  cases kind <;> rfl

theorem parts?_object {kind : Json} (h : entries.lookup "kind" = some kind) :
    parts? (.object entries) = some (kind, .byName entries) := by
  rw [parts?, h, Option.map_some]

def termsOfJson? : Json → Option (List Predicate)
  | .list items => readTerms? items
  | _ => none

/-- The predicate of a kind that the fields of a record hold. -/
def ofFields? (fields : Json.Fields) : Kind → Option Predicate
  | .always => some .always
  | .compare => compareOfFields? fields
  | .all => (fields.required 0 "terms" termsOfJson?).map .all
  | .any => (fields.required 0 "terms" termsOfJson?).map .any
  | .not => (fields.required 0 "term" (read? true)).map .not

/-- A predicate is read by its kind, and then by the fields that the kind has. -/
theorem read?_of_parts {j written : Json} {fields : Json.Fields} {kind : Kind}
    (hparts : parts? j = some (written, fields)) (hkind : Kind.ofJson? inner written = some kind)
    (hfits : fields.fits kind.fieldCount = true) : read? inner j = ofFields? fields kind := by
  rw [read?]
  -- the function is taken apart once here, so that the readers of the kinds can be stated without it
  split
  next hnone =>
    rw [hparts] at hnone
    cases hnone
  next written' fields' hsome =>
    obtain ⟨rfl, rfl⟩ := Prod.mk.inj (Option.some.inj (hparts.symm.trans hsome))
    rw [hkind, Option.bind_eq_bind, Option.bind_some, if_pos hfits]
    cases kind with
    | always | compare => rfl
    -- the terms are read only if they are a list
    | all | any =>
      dsimp only [ofFields?, Json.Fields.required]
      split
      next items hlist => simp only [hlist, termsOfJson?, Option.bind_some]
      next hother =>
        have hnone : (fields.get? 0 "terms").bind termsOfJson? = none := by
          rw [Option.bind_eq_none_iff]
          intro value hvalue
          unfold termsOfJson?
          split
          next items => exact absurd hvalue (hother items)
          next => rfl
        rw [hnone, Option.map_none]
    | not =>
      dsimp only [ofFields?, Json.Fields.required]
      split
      all_goals
        next hterm => simp only [hterm, Option.bind_some, Option.bind_none, Option.map_none]

theorem required_eq {α : Type} {fields : Json.Fields} {place : Nat} {name : String} {value : Json}
    (h : fields.get? place name = some value) (read : Json → Option α) :
    fields.required place name read = read value := by
  rw [Json.Fields.required, h, Option.bind_some]

/-! ## Reading what extends a document -/

/-- In an object that extends one with a kind, the fields of the kind are found, and they extend what was there. -/
theorem read?_of_extends_object (kind : Kind) {j : Json} (hkind : ("kind", .text kind.name) ∈ entries)
    (hnames : (entries.map Prod.fst).Nodup) (h : Json.Extends (.object entries) j) (inner : Bool) :
    ∃ fields, read? inner j = ofFields? fields kind ∧ ∀ place name value, (name, value) ∈ entries →
      ∃ value', fields.get? place name = some value' ∧ Json.Extends value value' := by
  rcases h.of_object hnames with ⟨entries', rfl, hfound⟩
  rcases hfound _ _ hkind with ⟨written, hwritten, hextends⟩
  obtain rfl := hextends.of_text
  refine ⟨.byName entries', ?_, fun _ => hfound⟩
  exact read?_of_parts (parts?_object hwritten) (Kind.ofJson?_name inner kind) rfl

theorem readTerms?_extends {terms : List Predicate} {items : List Json}
    (hterms : ∀ term ∈ terms, ∀ inner j, Json.Extends term.toJson j → read? inner j = some term)
    (h : List.Forall₂ Json.Extends (termsToJson terms) items) : readTerms? items = some terms := by
  -- by induction on the terms; each is read as a term inside another predicate
  induction terms generalizing items with
  | nil =>
    rw [termsToJson] at h
    rcases h with _ | _
    rw [readTerms?]
  | cons term terms ih =>
    rw [termsToJson] at h
    rcases h with _ | ⟨hfirst, hrest⟩
    have hterm := hterms term List.mem_cons_self true _ hfirst
    have hothers := ih (fun other hother => hterms other (List.mem_cons_of_mem _ hother)) hrest
    rw [readTerms?, hterm, hothers]
    rfl

/-- The terms of a group are found and read. -/
theorem termsOfJson?_extends {terms : List Predicate} {j : Json}
    (hterms : ∀ term ∈ terms, ∀ inner j, Json.Extends term.toJson j → read? inner j = some term)
    (h : Json.Extends (.list (termsToJson terms)) j) : termsOfJson? j = some terms := by
  rcases h.of_list with ⟨items, rfl, hitems⟩
  exact readTerms?_extends hterms hitems

/-- A predicate is read from every document that extends its own, whether it stands alone or in another one. -/
theorem read?_extends (p : Predicate) (inner : Bool) {j : Json} (h : Json.Extends p.toJson j) :
    read? inner j = some p := by
  induction p using induct generalizing inner j with
  | always =>
    rw [toJson] at h
    -- further entries do not matter, since none of them is asked for
    rcases read?_of_extends_object .always (by simp) (by simp) h inner with ⟨fields, hread, -⟩
    exact hread
  | compare field op value =>
    rw [toJson] at h
    rcases read?_of_extends_object .compare (by simp) (by simp) h inner with ⟨fields, hread, hfound⟩
    -- the field, the comparison and the value are no objects, so nothing about them can change
    rcases hfound 0 "field" (.text field.name) (by simp) with ⟨_, hfield, hsame⟩
    obtain rfl := hsame.of_text
    rcases hfound 1 "op" (.text op.name) (by simp) with ⟨_, hop, hsame⟩
    obtain rfl := hsame.of_text
    rcases hfound 2 "value" value.toJson (by simp) with ⟨_, hvalue, hsame⟩
    obtain rfl := Value.extends_toJson hsame
    have hnamed : (choice? (.text field.name)).bind Field.named? = some field := Field.named?_name field
    have hcompared : (choice? (.text op.name)).bind Comparison.named? = some op := Comparison.named?_name op
    rw [hread, ofFields?, compareOfFields?, required_eq hfield, required_eq hop, required_eq hvalue, hnamed, hcompared,
      Value.ofJson?_toJson]
    rfl
  | all terms ih =>
    rw [toJson] at h
    rcases read?_of_extends_object .all (by simp) (by simp) h inner with ⟨fields, hread, hfound⟩
    -- the terms are found in a list, and what is written for each of them has been extended in turn
    rcases hfound 0 "terms" (.list (termsToJson terms)) (by simp) with ⟨_, hlist, hextends⟩
    rw [hread, ofFields?, required_eq hlist, termsOfJson?_extends ih hextends, Option.map_some]
  | any terms ih =>
    rw [toJson] at h
    rcases read?_of_extends_object .any (by simp) (by simp) h inner with ⟨fields, hread, hfound⟩
    rcases hfound 0 "terms" (.list (termsToJson terms)) (by simp) with ⟨_, hlist, hextends⟩
    rw [hread, ofFields?, required_eq hlist, termsOfJson?_extends ih hextends, Option.map_some]
  | not term ih =>
    rw [toJson] at h
    rcases read?_of_extends_object .not (by simp) (by simp) h inner with ⟨fields, hread, hfound⟩
    -- the term may also be written by the number of its kind, as it stands inside another predicate
    rcases hfound 0 "term" term.toJson (by simp) with ⟨_, hterm, hextends⟩
    rw [hread, ofFields?, required_eq hterm, ih true hextends, Option.map_some]

/-- A predicate is read back from its document, and also when in any object of it the entries stand in another order or
there are entries under names that the object does not have.  An object has the names of the fields of its kind. -/
theorem ofJson?_toJson_extends (p : Predicate) :
    ofJson? p.toJson = some p ∧ ∀ j, Json.Extends p.toJson j → ofJson? j = some p := by
  refine ⟨?_, ?_⟩
  · exact read?_extends p false (.same _)
  · intro j h
    exact read?_extends p false h

/-- Entries in reverse order, and entries that belong to other kinds or to none. -/
theorem ofJson?_toJson_extends_reversed :
    let digits : Predicate := .compare .username .eq (.text "35")
    let p : Predicate := .any [.not digits, .all []]
    let written : Json := .object [("terms", .null), ("value", .text "35"), ("op", .text "Eq"),
      ("field", .text "username"), ("kind", .text "compare")]
    let j : Json := .object [("terms", .list [.object [("note", .list []), ("term", written), ("kind", .text "not")],
      .object [("terms", .list []), ("kind", .text "and")]]), ("kind", .text "or")]
    Json.Extends p.toJson j ∧ ofJson? j = some p := by
  intro digits p written j
  -- the reversed documents are built from the inside
  have hdigits : Json.Extends digits.toJson written :=
    @Json.Extends.object _ [("terms", .null)] _ _ (List.forall₂_same.mpr fun value _ => .same value) (by simp)
      (List.reverse_perm _).symm
  have hnot : Json.Extends digits.not.toJson (.object [("note", .list []), ("term", written), ("kind", .text "not")]) :=
    @Json.Extends.object _ [("note", .list [])] _ _ (.cons (.same _) (.cons hdigits .nil)) (by simp)
      (List.reverse_perm _).symm
  have hall : Json.Extends (all []).toJson (.object [("terms", .list []), ("kind", .text "and")]) :=
    @Json.Extends.object _ [] _ _ (List.forall₂_same.mpr fun value _ => .same value) (by simp)
      (List.reverse_perm _).symm
  have h : Json.Extends p.toJson j :=
    @Json.Extends.object _ [] _ _ (.cons (.same _) (.cons (.list (.cons hnot (.cons hall .nil))) .nil)) (by simp)
      (List.reverse_perm _).symm
  exact ⟨h, (ofJson?_toJson_extends p).2 j h⟩

end Predicate

end Roster
