import Roster.Field
import Roster.Value

/-! # Statements

A statement is text with holes, put together from fixed words, quoted names, columns and numbered slots, beside
the values for its slots.  Values never become part of the text.
-/

namespace Roster

/-- A part of the text of a statement. -/
inductive Sql.Piece where
  | text (words : String)
  | quoted (name : String)
  | column (field : Field)
  | slot (number : Int32)
deriving Repr, DecidableEq

/-- The text of a statement, in parts. -/
abbrev Sql : Type :=
  List Sql.Piece

/-- A name in double quotes; a quote inside is written twice. -/
def Sql.quote (name : String) : String :=
  "\"" ++ String.ofList (name.toList.flatMap fun c => if c = '"' then ['"', '"'] else [c]) ++ "\""

/-- The column of a field, qualified by the letter of its entity. -/
def Field.reference (field : Field) : String :=
  field.entity.alias ++ "." ++ Sql.quote field.column

namespace Sql

def Piece.render : Piece → String
  | .text words => words
  | .quoted name => quote name
  | .column field => field.reference
  | .slot number => "$" ++ toString number

def render (sql : Sql) : String :=
  String.join (sql.map Piece.render)

/-- Texts with a separator between them. -/
def joinWith (separator : String) : List Sql → Sql
  | [] => []
  | [sql] => sql
  | sql :: sqls => sql ++ .text separator :: joinWith separator sqls

end Sql

/-- A statement with a value, or null, for each of its slots. -/
structure Statement where
  sql : Sql
  params : List (Option Value)
deriving Repr, DecidableEq

end Roster
