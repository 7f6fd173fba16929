/-! # Three-valued truth

The truth values of a comparison against data that may be missing, ordered from false over unknown to true.
-/

namespace Roster

/-- A truth value; `unknown` is the value of a comparison with missing data. -/
inductive Truth where
  | no
  | unknown
  | yes
deriving Repr, DecidableEq

/-- The truth value of a decided question. -/
def Truth.ofBool (b : Bool) : Truth :=
  if b then .yes else .no

/-- Swaps true and false and keeps unknown. -/
def Truth.negate : Truth → Truth
  | .no => .yes
  | .unknown => .unknown
  | .yes => .no

end Roster
