import Roster.Error
import Roster.Field
import Roster.Text.Blank
import Roster.Text.Case
import Roster.Text.Separate

/-! # Sort terms

By which field to sort, in which direction and where empty values go, and the keys in which a caller writes that.
-/

namespace Roster

inductive Direction where
  | asc
  | desc
deriving Repr, DecidableEq

def Direction.keyword : Direction → String
  | .asc => "ASC"
  | .desc => "DESC"

def Direction.name : Direction → String
  | .asc => "asc"
  | .desc => "desc"

def Direction.named? (s : String) : Option Direction :=
  [asc, desc].find? (·.name == s)

/-- Where empty values go. -/
inductive NullPlacement where
  | first
  | last
deriving Repr, DecidableEq

def NullPlacement.keyword : NullPlacement → String
  | .first => "NULLS FIRST"
  | .last => "NULLS LAST"

def NullPlacement.name : NullPlacement → String
  | .first => "first"
  | .last => "last"

def NullPlacement.named? (s : String) : Option NullPlacement :=
  [first, last].find? (·.name == s)

/-- One term of an ordering.  Without a placement empty values go last when ascending and first when descending. -/
structure SortTerm where
  field : Field
  direction : Direction
  nulls : Option NullPlacement
deriving Repr, DecidableEq

namespace SortTerm

def asc (field : Field) : SortTerm :=
  ⟨field, .asc, none⟩

def desc (field : Field) : SortTerm :=
  ⟨field, .desc, none⟩

def nullsFirst (term : SortTerm) : SortTerm :=
  { term with nulls := some .first }

def nullsLast (term : SortTerm) : SortTerm :=
  { term with nulls := some .last }

/-! ## Sort keys -/

/-- What an option of a sort key, in lower case, does to the term. -/
def option? : String → Option (SortTerm → SortTerm)
  | "asc" => some fun term => { term with direction := .asc }
  | "desc" => some fun term => { term with direction := .desc }
  | "nullsfirst" => some nullsFirst
  | "nullslast" => some nullsLast
  | _ => none

/-- Applies the options of a sort key from left to right, so the last one of a kind counts. -/
def withOptions (key : String) (term : SortTerm) : List String → Except SearchFault SortTerm
  | [] => .ok term
  | part :: parts =>
    match option? (Text.lower part) with
    | some change => withOptions key (change term) parts
    | none => .error (.unknownSortOption (Text.lower part) key)

/-- The parts of a sort key: the stretches between commas, without blanks around them. -/
def keyParts (key : String) : List String :=
  (Text.separate ',' key.toList).map fun cs => String.ofList (Text.trimChars cs)

/-- The term that a sort key writes: a field and then options, such as `username,desc,nullslast`. -/
def parse (key : String) : Except SearchFault SortTerm :=
  match keyParts key with
  | [] => .error (.unknownSortField "")
  | name :: parts =>
    match Field.parse? name with
    | some field => withOptions key (asc field) parts
    | none => .error (.unknownSortField name)

end SortTerm

end Roster
