import Roster.Text.Utf8

/-! # Texts and their bytes

Decoding finds a text again in its bytes.  The characters are read one by one: a first byte opens a character, further
bytes give six bits each, and the last one completes it.

* `decodeAfter_opening`, `decodeAfter_further`, `decodeAfter_last`: what one byte does.
* `decodeAfter_encodeChar`: the bytes of a character are read as that character, whatever follows.
* `decodeUtf8_utf8Bytes`: the bytes of a text are read as that text.
* `utf8Bytes_inj`: different texts have different bytes.
-/

namespace Roster.Text

/-! ## Reading a byte -/

theorem decodeAfter_whole {b : UInt8} {c : Char} (h : firstByte b.toNat = .whole c) (bs : List UInt8) :
    decodeAfter none (b :: bs) = c :: decodeAfter none bs := by
  rw [decodeAfter, h]

theorem decodeAfter_opening {b : UInt8} {p : Partial} (h : firstByte b.toNat = .opening p) (bs : List UInt8) :
    decodeAfter none (b :: bs) = decodeAfter (some p) bs := by
  rw [decodeAfter, h]

section Further

variable {bits further low high m : Nat} (hm : m < 64) (hlow : low ≤ m + 128) (hhigh : m + 128 ≤ high)

include hm in
theorem toNat_furtherByte : (UInt8.ofNat (m + 128)).toNat = m + 128 :=
  UInt8.toNat_ofNat_of_lt' (show m + 128 < 256 by omega)

include hm hlow hhigh

/-- A further byte adds its six bits. -/
theorem decodeAfter_further (bs : List UInt8) :
    decodeAfter (some ⟨bits, further + 1, low, high⟩) (UInt8.ofNat (m + 128) :: bs) =
      decodeAfter (some ⟨bits * 64 + m, further, 0x80, 0xBF⟩) bs := by
  have hpush : (Partial.mk bits (further + 1) low high).push (m + 128) =
      .opening ⟨bits * 64 + m, further, 0x80, 0xBF⟩ := by
    rw [Partial.push, if_pos ⟨hlow, hhigh⟩, Nat.add_sub_cancel]
  rw [decodeAfter, toNat_furtherByte hm, hpush]

/-- The last byte completes the character. -/
theorem decodeAfter_last (bs : List UInt8) :
    decodeAfter (some ⟨bits, 0, low, high⟩) (UInt8.ofNat (m + 128) :: bs) =
      Char.ofNat (bits * 64 + m) :: decodeAfter none bs := by
  have hpush : (Partial.mk bits 0 low high).push (m + 128) = .whole (Char.ofNat (bits * 64 + m)) := by
    rw [Partial.push, if_pos ⟨hlow, hhigh⟩, Nat.add_sub_cancel]
  rw [decodeAfter, toNat_furtherByte hm, hpush]

end Further

/-! ## First bytes -/

theorem firstByte_ascii {n : Nat} (hn : n ≤ 0x7F) : firstByte n = .whole (Char.ofNat n) := by
  rw [firstByte, if_pos (by omega)]

/-- The first of two bytes; fewer bits would fit one byte. -/
theorem firstByte_two {n : Nat} (hmin : 2 ≤ n) (hmax : n < 32) :
    firstByte (n + 192) = .opening ⟨n, 0, 0x80, 0xBF⟩ := by
  rw [firstByte, if_neg (by omega), if_neg (by omega), if_pos (by omega), Nat.add_sub_cancel]

/-- The first of three bytes before one with the bits `m`, which are not too few and no surrogate's. -/
theorem firstByte_three {n m : Nat} (hn : n < 16) (hm : m < 64) (hfew : n = 0 → 32 ≤ m) (hsurrogate : n = 13 → m < 32) :
    ∃ low high, firstByte (n + 224) = .opening ⟨n, 1, low, high⟩ ∧ low ≤ m + 128 ∧ m + 128 ≤ high := by
  rw [firstByte, if_neg (by omega), if_neg (by omega), if_neg (by omega)]
  -- the lead byte narrows the range of the next one for the overlong forms and for the surrogates
  by_cases hzero : n = 0
  · rw [if_pos (by omega), hzero]
    exact ⟨0xA0, 0xBF, rfl, by omega, by omega⟩
  · rw [if_neg (by omega)]
    by_cases hthirteen : n = 13
    · rw [if_pos (by omega), hthirteen]
      exact ⟨0x80, 0x9F, rfl, by omega, by omega⟩
    · rw [if_neg (by omega), if_pos (by omega), Nat.add_sub_cancel]
      exact ⟨0x80, 0xBF, rfl, by omega, by omega⟩

/-- The first of four bytes before one with the bits `m`, which are not too few and not past the last plane. -/
theorem firstByte_four {n m : Nat} (hn : n < 5) (hm : m < 64) (hfew : n = 0 → 16 ≤ m) (hmany : n = 4 → m < 16) :
    ∃ low high, firstByte (n + 240) = .opening ⟨n, 2, low, high⟩ ∧ low ≤ m + 128 ∧ m + 128 ≤ high := by
  rw [firstByte, if_neg (by omega), if_neg (by omega), if_neg (by omega), if_neg (by omega), if_neg (by omega),
    if_neg (by omega)]
  -- again for the overlong forms and for what is past the last code point
  by_cases hzero : n = 0
  · rw [if_pos (by omega), hzero]
    exact ⟨0x90, 0xBF, rfl, by omega, by omega⟩
  · rw [if_neg (by omega)]
    by_cases hfour : n = 4
    · rw [if_neg (by omega), if_pos (by omega), hfour]
      exact ⟨0x80, 0x8F, rfl, by omega, by omega⟩
    · rw [if_pos (by omega), Nat.add_sub_cancel]
      exact ⟨0x80, 0xBF, rfl, by omega, by omega⟩

/-! ## Characters and texts -/

/-- The code points of characters: all up to the last plane, without the surrogates. -/
theorem toNat_char (c : Char) : c.toNat < 0xD800 ∨ 0xDFFF < c.toNat ∧ c.toNat < 0x110000 :=
  c.valid

/-- The bytes of a character are read as that character. -/
theorem decodeAfter_encodeChar (c : Char) (rest : List UInt8) :
    decodeAfter none (String.utf8EncodeChar c ++ rest) = c :: decodeAfter none rest := by
  have hc : c.val.toNat = c.toNat := rfl
  have hvalid := toNat_char c
  have hback : ∀ n, n = c.toNat → Char.ofNat n = c := by
    rintro n rfl
    exact Char.ofNat_toNat c
  -- one case for each number of bytes; the bits in them are those of the code point in groups of six
  unfold String.utf8EncodeChar
  simp only [hc]
  split
  case isTrue hone =>
    have hbyte : (UInt8.ofNat c.toNat).toNat = c.toNat := UInt8.toNat_ofNat_of_lt' (show c.toNat < 256 by omega)
    have hfirst : firstByte (UInt8.ofNat c.toNat).toNat = .whole c := by
      rw [hbyte, firstByte_ascii hone, hback _ rfl]
    exact decodeAfter_whole hfirst rest
  case isFalse hone =>
    split
    case isTrue htwo =>
      have hfirst := @firstByte_two (c.toNat / 64 % 32) (by omega) (by omega)
      rw [← UInt8.toNat_ofNat_of_lt' (show c.toNat / 64 % 32 + 192 < 256 by omega)] at hfirst
      rw [List.cons_append, decodeAfter_opening hfirst, List.cons_append,
        decodeAfter_last (by omega) (by omega) (by omega), hback _ (by omega)]
      rfl
    case isFalse htwo =>
      split
      case isTrue hthree =>
        rcases @firstByte_three (c.toNat / 4096 % 16) (c.toNat / 64 % 64) (by omega) (by omega) (by omega) (by omega)
          with ⟨low, high, hfirst, hlow, hhigh⟩
        rw [← UInt8.toNat_ofNat_of_lt' (show c.toNat / 4096 % 16 + 224 < 256 by omega)] at hfirst
        rw [List.cons_append, decodeAfter_opening hfirst, List.cons_append, decodeAfter_further (by omega) hlow hhigh,
          List.cons_append, decodeAfter_last (by omega) (by omega) (by omega), hback _ (by omega)]
        rfl
      case isFalse hthree =>
        rcases @firstByte_four (c.toNat / 262144 % 8) (c.toNat / 4096 % 64) (by omega) (by omega) (by omega) (by omega)
          with ⟨low, high, hfirst, hlow, hhigh⟩
        rw [← UInt8.toNat_ofNat_of_lt' (show c.toNat / 262144 % 8 + 240 < 256 by omega)] at hfirst
        rw [List.cons_append, decodeAfter_opening hfirst, List.cons_append, decodeAfter_further (by omega) hlow hhigh,
          List.cons_append, decodeAfter_further (by omega) (by omega) (by omega), List.cons_append,
          decodeAfter_last (by omega) (by omega) (by omega), hback _ (by omega)]
        rfl

/-- Decoding finds a text in its bytes. -/
theorem decodeUtf8_utf8Bytes (s : String) : decodeUtf8 (utf8Bytes s) = s := by
  have hchars : ∀ cs : List Char, decodeAfter none (cs.flatMap String.utf8EncodeChar) = cs := by
    intro cs
    induction cs with
    | nil => rfl
    | cons c cs ih => rw [List.flatMap_cons, decodeAfter_encodeChar, ih]
  rw [decodeUtf8, utf8Bytes, hchars, String.ofList_toList]

theorem utf8Bytes_append (s t : String) : utf8Bytes (s ++ t) = utf8Bytes s ++ utf8Bytes t := by
  rw [utf8Bytes, String.toList_append, List.flatMap_append]
  rfl

/-- Different texts have different bytes. -/
theorem utf8Bytes_inj {s t : String} : utf8Bytes s = utf8Bytes t ↔ s = t := by
  constructor
  · intro h
    rw [← decodeUtf8_utf8Bytes s, h, decodeUtf8_utf8Bytes]
  · rintro rfl
    rfl

end Roster.Text
