import Roster.Error
import Roster.Integer
import Roster.Text.Blank
import Roster.Text.Numeral

/-! # Ages in searches

An age is given as a number or as text.  Blank text gives no age; any other text has to spell a 64-bit integer,
and the integer has to fit the 32 bits of an age.
-/

namespace Roster.Criteria

def ageOfInt (n : Int64) : Except AgeFault Int32 :=
  match Integer.to32? n.toInt with
  | some age => .ok age
  | none => .error (.outOfRange n)

/-- The age that a text gives, if it is not blank. -/
def ageOfText (s : String) : Except AgeFault (Option Int32) :=
  if Text.isBlank s then .ok none
  else match (Text.integer? (Text.trimChars s.toList)).bind Integer.to64? with
    | some n => (ageOfInt n).map some
    | none => .error (.unreadable s)

end Roster.Criteria
