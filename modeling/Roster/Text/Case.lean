/-! # Letter case

Upper and lower case of the letters A to Z.  All other characters stay as they are.
-/

namespace Roster.Text

/-- A text with the letters a to z in upper case. -/
def upper (s : String) : String :=
  String.ofList (s.toList.map Char.toUpper)

/-- A text with the letters A to Z in lower case. -/
def lower (s : String) : String :=
  String.ofList (s.toList.map Char.toLower)

end Roster.Text
