import Roster.Decimal
import Roster.Integer

/-! # Documents

JSON documents, and how single values and the fields of records are found in them.

* A record is an object with a value under each field's name, or a list of the values in the order of the fields.
* Names that belong to no field have no effect.
* A choice among names is the name itself, or an object with that name as its only key.
-/

namespace Roster

/-- A JSON document.  A number written with a point or an exponent is a `decimal`, any other an `int`. -/
inductive Json where
  | null
  | bool (b : Bool)
  | int (n : Int)
  | decimal (d : Decimal)
  | text (s : String)
  | list (items : List Json)
  | object (entries : List (String × Json))
deriving Repr

namespace Json

variable {α : Type}

/-! ## Single values -/

def int64? : Json → Option Int64
  | .int n => Integer.to64? n
  | _ => none

def int32? : Json → Option Int32
  | .int n => Integer.to32? n
  | _ => none

/-- A fraction; a whole number is one too. -/
def decimal? : Json → Option Decimal
  | .int n => some (.ofInt n)
  | .decimal d => some d
  | _ => none

def text? : Json → Option String
  | .text s => some s
  | _ => none

/-- A list of things that can each be read. -/
def list? (read : Json → Option α) : Json → Option (List α)
  | .list items => items.mapM read
  | _ => none

/-- Null, or something that can be read. -/
def orNull? (read : Json → Option α) : Json → Option (Option α)
  | .null => some none
  | j => (read j).map some

/-- The name that a choice makes: the name itself, or the only key of an object whose value is null. -/
def choice? : Json → Option String
  | .text s => some s
  | .object [(s, .null)] => some s
  | _ => none

/-! ## Fields of records -/

/-- The values of a record: under the names of its fields, or in their order. -/
inductive Fields where
  | byName (entries : List (String × Json))
  | byPlace (items : List Json)
deriving Repr

namespace Fields

/-- The value for the field of that name, which has that place in the order of fields. -/
def get? (place : Nat) (name : String) : Fields → Option Json
  | .byName entries => entries.lookup name
  | .byPlace items => items[place]?

/-- Whether there are no more values in order than the record has fields. -/
def fits (count : Nat) : Fields → Bool
  | .byName _ => true
  | .byPlace items => items.length ≤ count

/-- A field that every record has. -/
def required (fields : Fields) (place : Nat) (name : String) (read : Json → Option α) : Option α :=
  (fields.get? place name).bind read

/-- A field with a default for records that leave it out. -/
def withDefault (fields : Fields) (place : Nat) (name : String) (default : α)
    (read : Json → Option α) : Option α :=
  match fields.get? place name with
  | some j => read j
  | none => some default

/-- A field that may be null.  Objects may leave it out, too; lists may not. -/
def nullable (fields : Fields) (place : Nat) (name : String) (read : Json → Option α) : Option (Option α) :=
  match fields.get? place name, fields with
  | some j, _ => orNull? read j
  | none, .byName _ => some none
  | none, .byPlace _ => none

end Fields

/-- The fields of a record with that many fields. -/
def fields? (count : Nat) : Json → Option Fields
  | .object entries => some (.byName entries)
  | .list items => if items.length ≤ count then some (.byPlace items) else none
  | _ => none

/-! ## Writing -/

def ofInt64 (n : Int64) : Json :=
  .int n.toInt

def ofInt32 (n : Int32) : Json :=
  .int n.toInt

/-- Something that may be missing; what is missing is null. -/
def ofOption (write : α → Json) : Option α → Json
  | some a => write a
  | none => .null

/-- The entry for something that may be missing; what is missing has no entry. -/
def entryOf (name : String) (write : α → Json) : Option α → List (String × Json)
  | some a => [(name, write a)]
  | none => []

end Json

end Roster
