/-! # Integers of fixed width

Reading exact integers into 64 and 32 bits, and arithmetic that stops at the bounds instead of wrapping.
-/

namespace Roster.Integer

/-- The 64-bit integer of that value, if there is one. -/
def to64? (n : Int) : Option Int64 :=
  if Int64.minValue.toInt ≤ n ∧ n ≤ Int64.maxValue.toInt then some (Int64.ofInt n) else none

/-- The 32-bit integer of that value, if there is one. -/
def to32? (n : Int) : Option Int32 :=
  if Int32.minValue.toInt ≤ n ∧ n ≤ Int32.maxValue.toInt then some (Int32.ofInt n) else none

/-- The sum, or the bound that it passes. -/
def addSat (a b : Int64) : Int64 :=
  Int64.ofIntClamp (a.toInt + b.toInt)

/-- The product, or the bound that it passes. -/
def mulSat (a b : Int64) : Int64 :=
  Int64.ofIntClamp (a.toInt * b.toInt)

/-- The number as 64-bit integer, or the upper bound when it is larger. -/
def ofCount (n : Nat) : Int64 :=
  Int64.ofIntClamp n

end Roster.Integer
