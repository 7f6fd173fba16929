/-! # Decimal fractions

Numbers with a fixed count of decimal places, kept exactly as an average is written.
-/

namespace Roster

/-- The number `± digits / 10 ^ places`.  Zero keeps its sign. -/
structure Decimal where
  negative : Bool
  digits : Nat
  places : Nat
deriving Repr, DecidableEq

def Decimal.ofInt (n : Int) : Decimal :=
  ⟨decide (n < 0), n.natAbs, 0⟩

/-- The same number with at least that many places. -/
def Decimal.widen (d : Decimal) (places : Nat) : Decimal :=
  ⟨d.negative, d.digits * Nat.pow 10 (places - d.places), max d.places places⟩

/-- The decimal text: at least one digit before the point and at least one after it. -/
def Decimal.text (d : Decimal) : String :=
  let d := d.widen 1
  let fraction := toString (d.digits % Nat.pow 10 d.places)
  let padding := String.ofList (List.replicate (d.places - fraction.length) '0')
  (if d.negative then "-" else "") ++ toString (d.digits / Nat.pow 10 d.places) ++ "." ++ padding ++ fraction

end Roster
