import Roster.Json.Value
import Roster.Predicate.Basic

/-! # Predicates as documents

A predicate is a record whose field `kind` says which fields follow: none for `always`, three for `compare`, the
list of terms for `and` and `or`, and one term for `not`.
-/

namespace Roster.Predicate

inductive Kind where
  | always
  | compare
  | all
  | any
  | not
deriving Repr, DecidableEq

/-- All kinds, in the order in which they are numbered. -/
def Kind.values : List Kind :=
  [.always, .compare, .all, .any, .not]

def Kind.name : Kind → String
  | .always => "always"
  | .compare => "compare"
  | .all => "and"
  | .any => "or"
  | .not => "not"

def Kind.fieldCount : Kind → Nat
  | .always => 0
  | .compare => 3
  | .all | .any | .not => 1

/-- The kind that a document names.  A predicate inside another one may give the number of its kind instead. -/
def Kind.ofJson? (inner : Bool) : Json → Option Kind
  | .text s => values.find? (·.name == s)
  | .int n => if inner && 0 ≤ n then values[n.toNat]? else none
  | _ => none

/-- The kind of a predicate as written, and its further fields. -/
def parts? : Json → Option (Json × Json.Fields)
  | .object entries => (entries.lookup "kind").map fun kind => (kind, .byName entries)
  | .list (kind :: items) => some (kind, .byPlace items)
  | _ => none

/-- A choice inside a predicate; the value beside its name may also be an object without entries. -/
def choice? : Json → Option String
  | .object [(s, .object [])] => some s
  | j => j.choice?

/-- The comparison that the fields of a record make. -/
def compareOfFields? (fields : Json.Fields) : Option Predicate := do
  let field ← fields.required 0 "field" fun j => (choice? j).bind Field.named?
  let op ← fields.required 1 "op" fun j => (choice? j).bind Comparison.named?
  let value ← fields.required 2 "value" Value.ofJson?
  return .compare field op value

/-! ## Sizes

Terms are found among the parts of a document, so they are smaller than the document.
-/

/-- A value found by its name is smaller than the entries. -/
theorem sizeOf_of_lookup {name : String} {entries : List (String × Json)} {j : Json}
    (h : entries.lookup name = some j) : sizeOf j < sizeOf entries := by
  induction entries with
  | nil => simp at h
  | cons entry rest ih =>
    obtain ⟨key, value⟩ := entry
    rw [List.lookup_cons] at h
    split at h
    · obtain rfl := Option.some.inj h
      simp only [List.cons.sizeOf_spec, Prod.mk.sizeOf_spec]
      omega
    · have := ih h
      simp only [List.cons.sizeOf_spec]
      omega

/-- A field of a predicate is smaller than the predicate. -/
theorem sizeOf_of_parts {j kind value : Json} {fields : Json.Fields} {place : Nat} {name : String}
    (h : parts? j = some (kind, fields)) (hv : fields.get? place name = some value) : sizeOf value < sizeOf j := by
  unfold parts? at h
  split at h
  · obtain ⟨_, _, heq⟩ := Option.map_eq_some_iff.1 h
    obtain ⟨rfl, rfl⟩ := Prod.mk.inj heq
    have := sizeOf_of_lookup hv
    simp only [Json.object.sizeOf_spec]
    omega
  · obtain ⟨rfl, rfl⟩ := Prod.mk.inj (Option.some.inj h)
    have := List.sizeOf_lt_of_mem (List.mem_of_getElem? hv)
    simp only [Json.list.sizeOf_spec, List.cons.sizeOf_spec]
    omega
  · cases h

/-- The items of a list that is a field of a predicate are smaller than the predicate. -/
theorem sizeOf_items_of_parts {j kind : Json} {items : List Json} {fields : Json.Fields} {place : Nat} {name : String}
    (h : parts? j = some (kind, fields)) (hv : fields.get? place name = some (.list items)) :
    sizeOf items < sizeOf j := by
  have := sizeOf_of_parts h hv
  simp only [Json.list.sizeOf_spec] at this
  omega

/-! ## Reading and writing -/

mutual

/-- The predicate that a document holds; `inner` tells a term from a predicate that stands alone. -/
def read? (inner : Bool) (j : Json) : Option Predicate :=
  match h : parts? j with
  | none => none
  | some (kind, fields) => do
    let kind ← Kind.ofJson? inner kind
    if fields.fits kind.fieldCount then
      match kind with
      | .always => some .always
      | .compare => compareOfFields? fields
      | .all =>
        match hv : fields.get? 0 "terms" with
        | some (.list items) =>
          have := sizeOf_items_of_parts h hv
          (readTerms? items).map .all
        | _ => none
      | .any =>
        match hv : fields.get? 0 "terms" with
        | some (.list items) =>
          have := sizeOf_items_of_parts h hv
          (readTerms? items).map .any
        | _ => none
      | .not =>
        match hv : fields.get? 0 "term" with
        | some term =>
          have := sizeOf_of_parts h hv
          (read? true term).map .not
        | none => none
    else none
termination_by sizeOf j

/-- The terms that the items of a list hold. -/
def readTerms? : List Json → Option (List Predicate)
  | [] => some []
  | j :: js => do
    let term ← read? true j
    let terms ← readTerms? js
    return term :: terms
termination_by js => sizeOf js

end

def ofJson? (j : Json) : Option Predicate :=
  read? false j

mutual

def toJson : Predicate → Json
  | .always => .object [("kind", .text Kind.always.name)]
  | .compare field op value =>
    .object [("kind", .text Kind.compare.name), ("field", .text field.name), ("op", .text op.name),
      ("value", value.toJson)]
  | .all terms => .object [("kind", .text Kind.all.name), ("terms", .list (termsToJson terms))]
  | .any terms => .object [("kind", .text Kind.any.name), ("terms", .list (termsToJson terms))]
  | .not term => .object [("kind", .text Kind.not.name), ("term", toJson term)]

def termsToJson : List Predicate → List Json
  | [] => []
  | term :: terms => toJson term :: termsToJson terms

end

end Roster.Predicate
