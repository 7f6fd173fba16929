import Roster.Error
import Roster.Text.Case
import Roster.Text.Utf8

/-! # Table names

Which names a configuration may give to its tables: short plain identifiers that are no keywords.
-/

namespace Roster.Sql

/-- The keywords that no table may have as its name. -/
def reservedWords : List String :=
  ["ALL", "AND", "ANY", "ARRAY", "AS", "ASC", "CASE", "CAST", "CHECK", "COLUMN", "CONSTRAINT",
   "CREATE", "DEFAULT", "DESC", "DISTINCT", "ELSE", "END", "EXCEPT", "FALSE", "FETCH", "FOR",
   "FOREIGN", "FROM", "GRANT", "GROUP", "HAVING", "IN", "INTERSECT", "INTO", "JOIN", "LIMIT",
   "NOT", "NULL", "OFFSET", "ON", "OR", "ORDER", "PRIMARY", "REFERENCES", "SELECT", "TABLE",
   "THEN", "TO", "TRUE", "UNION", "UNIQUE", "USER", "USING", "WHEN", "WHERE", "WITH"]

/-- A lower-case letter of the Latin alphabet. -/
def isNameStart (c : Char) : Bool :=
  'a' ≤ c && c ≤ 'z'

/-- A lower-case letter of the Latin alphabet, a digit or an underscore. -/
def isNameRest (c : Char) : Bool :=
  isNameStart c || '0' ≤ c && c ≤ '9' || c == '_'

/-- Whether characters form a plain identifier. -/
def isPlain : List Char → Bool
  | [] => false
  | c :: cs => isNameStart c && cs.all isNameRest

/-- Refuses a name that is empty, too long, not plain or reserved; the first of these decides. -/
def checkName (name : String) : Except NameFault Unit :=
  if name = "" then .error .empty
  else if maxNameBytes < (Text.utf8Bytes name).length then .error (.tooLong name)
  else if !isPlain name.toList then .error (.malformed name)
  else if reservedWords.contains (Text.upper name) then .error (.reserved name)
  else .ok ()

end Roster.Sql
