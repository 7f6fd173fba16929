/-! # UTF-8

Text as bytes and back.  Decoding never fails: bytes that form no character give the replacement character,
one for each longest stretch that could still have begun a character.
-/

namespace Roster.Text

/-- The UTF-8 bytes of a text. -/
def utf8Bytes (s : String) : List UInt8 :=
  s.toList.flatMap String.utf8EncodeChar

/-- Stands for bytes that form no character. -/
def replacement : Char := Char.ofNat 0xFFFD

/-- A character that is not complete yet: the bits read so far, how many bytes are still to come after the next
one, and the range in which the next byte has to lie. -/
structure Partial where
  bits : Nat
  further : Nat
  low : Nat
  high : Nat
deriving Repr, DecidableEq

/-- What a byte means at the start of a character, or where a character is incomplete. -/
inductive Reading where
  | whole (c : Char)
  | opening (p : Partial)
  | malformed
deriving Repr, DecidableEq

/-- The role of a first byte.  The ranges for the second byte leave out overlong forms, surrogates and code
points past the last plane. -/
def firstByte (b : Nat) : Reading :=
  if b < 0x80 then .whole (Char.ofNat b)
  else if b < 0xC2 then .malformed
  else if b < 0xE0 then .opening ⟨b - 0xC0, 0, 0x80, 0xBF⟩
  else if b = 0xE0 then .opening ⟨0, 1, 0xA0, 0xBF⟩
  else if b = 0xED then .opening ⟨0xD, 1, 0x80, 0x9F⟩
  else if b < 0xF0 then .opening ⟨b - 0xE0, 1, 0x80, 0xBF⟩
  else if b = 0xF0 then .opening ⟨0, 2, 0x90, 0xBF⟩
  else if b < 0xF4 then .opening ⟨b - 0xF0, 2, 0x80, 0xBF⟩
  else if b = 0xF4 then .opening ⟨4, 2, 0x80, 0x8F⟩
  else .malformed

/-- What a further byte makes of an incomplete character, if it may follow there. -/
def Partial.push (p : Partial) (b : Nat) : Reading :=
  if p.low ≤ b ∧ b ≤ p.high then
    let bits := p.bits * 0x40 + (b - 0x80)
    match p.further with
    | 0 => .whole (Char.ofNat bits)
    | further + 1 => .opening ⟨bits, further, 0x80, 0xBF⟩
  else .malformed

/-- Decodes what follows an incomplete character, if there is one. -/
def decodeAfter : Option Partial → List UInt8 → List Char
  | none, [] => []
  | some _, [] => [replacement]
  | none, b :: bs =>
    match firstByte b.toNat with
    | .whole c => c :: decodeAfter none bs
    | .opening p => decodeAfter (some p) bs
    | .malformed => replacement :: decodeAfter none bs
  | some p, b :: bs =>
    match p.push b.toNat with
    | .whole c => c :: decodeAfter none bs
    | .opening q => decodeAfter (some q) bs
    | .malformed =>
      -- the incomplete character is given up, and the byte is read as a first byte
      match firstByte b.toNat with
      | .whole c => replacement :: c :: decodeAfter none bs
      | .opening q => replacement :: decodeAfter (some q) bs
      | .malformed => replacement :: replacement :: decodeAfter none bs

/-- The text that bytes spell in UTF-8, with replacement characters for what is malformed. -/
def decodeUtf8 (bytes : List UInt8) : String :=
  String.ofList (decodeAfter none bytes)

end Roster.Text
