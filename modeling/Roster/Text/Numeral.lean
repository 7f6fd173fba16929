/-! # Decimal numerals

Reading whole numbers from decimal digits.  A numeral has at least one digit, any number of leading zeros, and
nothing else but an optional sign in front.
-/

namespace Roster.Text

/-- The number that the digits spell when they follow digits already read as `acc`. -/
def digitsFrom (acc : Nat) : List Char → Option Nat
  | [] => some acc
  | c :: cs => if c.isDigit then digitsFrom (acc * 10 + (c.toNat - '0'.toNat)) cs else none

/-- The number that a non-empty run of digits spells. -/
def natural? : List Char → Option Nat
  | [] => none
  | c :: cs => digitsFrom 0 (c :: cs)

/-- The number that a numeral with an optional sign spells; a plus sign changes nothing. -/
def integer? : List Char → Option Int
  | '+' :: cs => (natural? cs).map Int.ofNat
  | '-' :: cs => (natural? cs).map fun n => -Int.ofNat n
  | cs => (natural? cs).map Int.ofNat

end Roster.Text
