import Roster.Json.Basic
import Roster.Value

/-! # Values as documents

A value is a whole number in the range of 64 bits, or a text.
-/

namespace Roster.Value

def ofJson? : Json → Option Value
  | .int n => (Integer.to64? n).map .int
  | .text s => some (.text s)
  | _ => none

def toJson : Value → Json
  | .int n => .ofInt64 n
  | .text s => .text s

end Roster.Value
