import Roster.Text.Separate
import Roster.Text.Utf8

/-! # Form-encoded pairs

Reading `key=value&key=value` with `+` for a space and `%XX` for a byte.  Any text can be read: a percent sign
without two hexadecimal digits stands for itself, and a pair without `=` has the empty value.
-/

namespace Roster.Text

/-- The value of a hexadecimal digit in either case. -/
def hexDigit? (b : UInt8) : Option Nat :=
  let n := b.toNat
  if 0x30 ≤ n ∧ n ≤ 0x39 then some (n - 0x30)
  else if 0x41 ≤ n ∧ n ≤ 0x46 then some (n - 0x41 + 10)
  else if 0x61 ≤ n ∧ n ≤ 0x66 then some (n - 0x61 + 10)
  else none

/-- The byte that two hexadecimal digits spell. -/
def hexPair? (high low : UInt8) : Option UInt8 := do
  return UInt8.ofNat ((← hexDigit? high) * 16 + (← hexDigit? low))

/-- Puts a space for each plus sign. -/
def spaced (bytes : List UInt8) : List UInt8 :=
  bytes.map fun b => if b == 0x2B then 0x20 else b

/-- Puts the byte for each percent sign with two hexadecimal digits; any other percent sign stays. -/
def percentDecode : List UInt8 → List UInt8
  | [] => []
  | 0x25 :: c :: d :: bs =>
    match hexPair? c d with
    | some byte => byte :: percentDecode bs
    | none => 0x25 :: percentDecode (c :: d :: bs)
  | b :: bs => b :: percentDecode bs

def formText (bytes : List UInt8) : String :=
  decodeUtf8 (percentDecode (spaced bytes))

/-- The key and the value of one pair: what stands before and after the first `=`. -/
def formPair (bytes : List UInt8) : String × String :=
  let (key, value) := cutAt 0x3D bytes
  (formText key, formText value)

/-- The pairs of a form-encoded text in order; empty stretches between `&` are no pairs. -/
def formPairs (s : String) : List (String × String) :=
  ((separate 0x26 (utf8Bytes s)).filter (!·.isEmpty)).map formPair

end Roster.Text
