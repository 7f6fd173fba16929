import Mathlib.Data.List.Forall2
import Roster.Proofs.Text.Separate
import Roster.Proofs.Text.Utf8
import Roster.Text.Form

/-! # Writing form-encoded pairs

How values may be written in a form-encoded text, byte by byte and in a free choice for each byte, and what is read from
them.  A space may be a plus sign, any byte may be escaped, and a byte may stand for itself unless it is one of the
marks `&`, `+` and `%`.

* `Writes`: the ways to write bytes.
* `Writes.formText`: a text is read from any way to write its bytes.
* `WritesPair`: a key as it is, `=`, and a way to write the value.
* `formPairs_of_joined`: pairs are read as they were written, however many `&` stand between them.
* `formPairs_append`: pairs on both sides of a `&`.
* `writes_escaped`: every text can be written, with all bytes escaped.
-/

namespace Roster.Text

/-- A hexadecimal digit in lower or upper case. -/
def IsHexDigit (n : Nat) (d : UInt8) : Prop :=
  d = (Nat.digitChar n).toUInt8 ∨ d = (Nat.digitChar n).toUpper.toUInt8

/-- The ways to write bytes, with a choice for each of them: a byte that is not `&`, `+` or `%` as itself, a space as
`+`, and any byte as `%` with its two hexadecimal digits. -/
inductive Writes : List UInt8 → List UInt8 → Prop where
  | nil : Writes [] []
  | literal {b : UInt8} {bs written : List UInt8} (hb : b ∉ [0x26, 0x2B, 0x25]) (h : Writes bs written) :
      Writes (b :: bs) (b :: written)
  | plus {bs written : List UInt8} (h : Writes bs written) : Writes (0x20 :: bs) (0x2B :: written)
  | escape {b high low : UInt8} {bs written : List UInt8} (hhigh : IsHexDigit (b.toNat / 16) high)
      (hlow : IsHexDigit (b.toNat % 16) low) (h : Writes bs written) :
      Writes (b :: bs) (0x25 :: high :: low :: written)

/-- A key as it is, `=`, and a way to write the value. -/
def WritesPair (pair : String × String) (piece : List UInt8) : Prop :=
  ∃ written, Writes (utf8Bytes pair.2) written ∧ piece = utf8Bytes pair.1 ++ 0x3D :: written

/-- No byte of a key has a meaning of its own. -/
def IsPlainKey (key : String) : Prop :=
  ∀ b ∈ utf8Bytes key, b ∉ [0x26, 0x2B, 0x25, 0x3D]

/-! ## Hexadecimal digits -/

/-- What is read from a digit, and that it is none of the marks. -/
theorem IsHexDigit.spec {n : Nat} (hn : n < 16) {d : UInt8} (h : IsHexDigit n d) :
    hexDigit? d = some n ∧ d ≠ 0x2B ∧ d ≠ 0x26 := by
  -- both cases of the sixteen digits can be computed
  have hlower : ∀ m < 16, hexDigit? (Nat.digitChar m).toUInt8 = some m ∧ (Nat.digitChar m).toUInt8 ≠ 0x2B ∧
      (Nat.digitChar m).toUInt8 ≠ 0x26 := by
    decide
  have hupper : ∀ m < 16, hexDigit? (Nat.digitChar m).toUpper.toUInt8 = some m ∧
      (Nat.digitChar m).toUpper.toUInt8 ≠ 0x2B ∧ (Nat.digitChar m).toUpper.toUInt8 ≠ 0x26 := by
    decide
  rcases h with rfl | rfl
  · exact hlower n hn
  · exact hupper n hn

/-- Two digits are read as the byte with these digits. -/
theorem hexPair?_of_isHexDigit {b high low : UInt8} (hhigh : IsHexDigit (b.toNat / 16) high)
    (hlow : IsHexDigit (b.toNat % 16) low) : hexPair? high low = some b := by
  have hb := b.toNat_lt
  have hvalue : b.toNat / 16 * 16 + b.toNat % 16 = b.toNat := Nat.div_add_mod' b.toNat 16
  rw [hexPair?, (hhigh.spec (by omega)).1, (hlow.spec (by omega)).1]
  show some (UInt8.ofNat (b.toNat / 16 * 16 + b.toNat % 16)) = some b
  rw [hvalue, UInt8.ofNat_toNat]

/-! ## Reading what was written -/

theorem percentDecode_cons {b : UInt8} (hb : b ≠ 0x25) (bs : List UInt8) :
    percentDecode (b :: bs) = b :: percentDecode bs := by
  rw [percentDecode]
  intro c d ds heq
  exact absurd heq hb

theorem percentDecode_escape {b high low : UInt8} (h : hexPair? high low = some b) (bs : List UInt8) :
    percentDecode (0x25 :: high :: low :: bs) = b :: percentDecode bs := by
  rw [percentDecode, h]

theorem spaced_cons {b : UInt8} (hb : b ≠ 0x2B) (bs : List UInt8) : spaced (b :: bs) = b :: spaced bs := by
  rw [spaced, List.map_cons, if_neg (mt beq_iff_eq.mp hb)]
  rfl

/-- Bytes are read from any way to write them. -/
theorem Writes.percentDecode {bs written : List UInt8} (h : Writes bs written) :
    Text.percentDecode (spaced written) = bs := by
  -- every byte is written in one of three ways, and each is undone
  induction h with
  | nil => rfl
  | @literal b bs written hb h ih =>
    have hplus : b ≠ 0x2B := fun heq => hb (by simp [heq])
    have hpercent : b ≠ 0x25 := fun heq => hb (by simp [heq])
    rw [spaced_cons hplus, percentDecode_cons hpercent, ih]
  | @plus bs written h ih =>
    show Text.percentDecode (0x20 :: spaced written) = _
    rw [percentDecode_cons (by decide), ih]
  | @escape b high low bs written hhigh hlow h ih =>
    have hb := b.toNat_lt
    rw [spaced_cons (by decide), spaced_cons (hhigh.spec (by omega)).2.1, spaced_cons (hlow.spec (by omega)).2.1,
      percentDecode_escape (hexPair?_of_isHexDigit hhigh hlow), ih]

/-- A text is read from any way to write its bytes. -/
theorem Writes.formText {s : String} {written : List UInt8} (h : Writes (utf8Bytes s) written) :
    Text.formText written = s := by
  rw [Text.formText, h.percentDecode, decodeUtf8_utf8Bytes]

/-- What is written has no `&` in it. -/
theorem Writes.ampersand_not_mem {bs written : List UInt8} (h : Writes bs written) : 0x26 ∉ written := by
  induction h with
  | nil => exact List.not_mem_nil
  | literal hb h ih =>
    rw [List.mem_cons, not_or]
    exact ⟨fun heq => hb (by simp [heq]), ih⟩
  | plus h ih =>
    rw [List.mem_cons, not_or]
    exact ⟨by decide, ih⟩
  | @escape b high low bs written hhigh hlow h ih =>
    have hb := b.toNat_lt
    have hne := (hhigh.spec (by omega)).2.2
    have hne' := (hlow.spec (by omega)).2.2
    simp only [List.mem_cons, not_or]
    exact ⟨by decide, hne.symm, hne'.symm, ih⟩

/-- Bytes that are no marks can stand for themselves. -/
theorem writes_self {bs : List UInt8} (h : ∀ b ∈ bs, b ∉ [0x26, 0x2B, 0x25]) : Writes bs bs := by
  induction bs with
  | nil => exact .nil
  | cons b bs ih =>
    rw [List.forall_mem_cons] at h
    exact .literal h.1 (ih h.2)

/-! ## Pairs -/

/-- What each piece has from its partner holds of all pieces. -/
theorem forall_mem_of_forall₂ {α β : Type} {R : α → β → Prop} {motive : β → Prop} {as : List α} {bs : List β}
    (h : List.Forall₂ R as bs) (hR : ∀ a ∈ as, ∀ b, R a b → motive b) : ∀ b ∈ bs, motive b := by
  induction h with
  | nil => exact List.forall_mem_nil _
  | cons hab h ih =>
    rw [List.forall_mem_cons] at hR ⊢
    exact ⟨hR.1 _ hab, ih hR.2⟩

section Pairs

variable {pair : String × String} {piece : List UInt8}

/-- A plain key is read as it is. -/
theorem IsPlainKey.writes {key : String} (hkey : IsPlainKey key) : Writes (utf8Bytes key) (utf8Bytes key) :=
  writes_self fun b hb hmem => hkey b hb (List.mem_append_left [0x3D] hmem)

/-- A written pair is read as it was. -/
theorem WritesPair.formPair (h : WritesPair pair piece) (hkey : IsPlainKey pair.1) : Text.formPair piece = pair := by
  rcases h with ⟨written, hwritten, rfl⟩
  have hequals : (0x3D : UInt8) ∉ utf8Bytes pair.1 := fun hmem => hkey _ hmem (by decide)
  rw [Text.formPair, cutAt_append hequals]
  show (Text.formText (utf8Bytes pair.1), Text.formText written) = pair
  rw [hkey.writes.formText, hwritten.formText]

theorem WritesPair.ampersand_not_mem (h : WritesPair pair piece) (hkey : IsPlainKey pair.1) : 0x26 ∉ piece := by
  rcases h with ⟨written, hwritten, rfl⟩
  rw [List.mem_append, List.mem_cons, not_or, not_or]
  exact ⟨hkey.writes.ampersand_not_mem, by decide, hwritten.ampersand_not_mem⟩

/-- Pairs are read as they were written, however many `&` stand between them. -/
theorem formPairs_of_joined {pairs : List (String × String)} {pieces : List (List UInt8)} {s : String}
    (hkeys : ∀ pair ∈ pairs, IsPlainKey pair.1) (hpieces : List.Forall₂ WritesPair pairs pieces)
    (hjoined : Joined 0x26 pieces (utf8Bytes s)) : formPairs s = pairs := by
  have hplain : ∀ piece ∈ pieces, piece ≠ [] ∧ 0x26 ∉ piece := by
    refine forall_mem_of_forall₂ hpieces ?_
    intro pair hpair piece hpiece
    refine ⟨?_, hpiece.ampersand_not_mem (hkeys pair hpair)⟩
    rcases hpiece with ⟨written, -, rfl⟩
    exact List.append_ne_nil_of_right_ne_nil _ (List.cons_ne_nil _ _)
  -- each piece is read back alone, as none has a separator in it
  have hread : pairs = pieces.map formPair := by
    have heach := (List.forall₂_and_left pairs pieces).mpr ⟨hkeys, hpieces⟩
    rw [← List.forall₂_eq_eq_eq, List.forall₂_map_right_iff]
    exact heach.imp fun pair piece ⟨hkey, hpiece⟩ => (hpiece.formPair hkey).symm
  rw [formPairs, hjoined.filter_separate hplain, ← hread]

end Pairs

/-- Texts with `&` between them are joined by it. -/
theorem joined_intercalate (texts : List String) :
    Joined 0x26 (texts.map utf8Bytes) (utf8Bytes ("&".intercalate texts)) := by
  induction texts with
  | nil => exact .nil
  | cons text texts ih =>
    cases texts with
    | nil =>
      rw [String.intercalate_singleton]
      exact .single _
    | cons next texts =>
      rw [String.intercalate_cons_cons, utf8Bytes_append, utf8Bytes_append]
      exact .cons 0 ih

/-! ## Pairs before and after a pair -/

/-- Nothing, or text up to a `&`. -/
def EndsPair (front : String) : Prop :=
  front = "" ∨ ∃ text, front = text ++ "&"

/-- Nothing, or text from a `&` on. -/
def StartsPair (back : String) : Prop :=
  back = "" ∨ ∃ text, back = "&" ++ text

/-- A `&` parts the pairs before it from those behind it. -/
theorem formPairs_append (s t : String) : formPairs (s ++ "&" ++ t) = formPairs s ++ formPairs t := by
  have hbytes : utf8Bytes (s ++ "&" ++ t) = utf8Bytes s ++ 0x26 :: utf8Bytes t := by
    have hampersand : utf8Bytes "&" = [0x26] := by decide
    rw [utf8Bytes_append, utf8Bytes_append, hampersand, List.append_assoc, List.singleton_append]
  rw [formPairs, hbytes, separate_append, List.filter_append, List.map_append]
  rfl

theorem EndsPair.formPairs_append {front : String} (h : EndsPair front) (s : String) :
    formPairs (front ++ s) = formPairs front ++ formPairs s := by
  rcases h with rfl | ⟨text, rfl⟩
  · rw [String.empty_append]
    rfl
  · have hfront : formPairs (text ++ "&") = formPairs text := by
      rw [← String.append_empty (s := text ++ "&"), Text.formPairs_append]
      exact List.append_nil _
    rw [Text.formPairs_append, hfront]

theorem StartsPair.formPairs_append {back : String} (h : StartsPair back) (s : String) :
    formPairs (s ++ back) = formPairs s ++ formPairs back := by
  rcases h with rfl | ⟨text, rfl⟩
  · rw [String.append_empty]
    exact (List.append_nil _).symm
  · have hback : formPairs ("&" ++ text) = formPairs text := by
      rw [← String.empty_append (s := "&" ++ text), ← String.append_assoc, Text.formPairs_append]
      rfl
    rw [← String.append_assoc, Text.formPairs_append, hback]

/-! ## Texts with all bytes escaped -/

def escapedByte (b : UInt8) : List Char :=
  ['%', Nat.digitChar (b.toNat / 16), Nat.digitChar (b.toNat % 16)]

def escaped (s : String) : String :=
  String.ofList ((utf8Bytes s).flatMap escapedByte)

theorem encode_escapedByte (b : UInt8) :
    (escapedByte b).flatMap String.utf8EncodeChar =
      [0x25, (Nat.digitChar (b.toNat / 16)).toUInt8, (Nat.digitChar (b.toNat % 16)).toUInt8] := by
  have hdigit : ∀ m < 16, String.utf8EncodeChar (Nat.digitChar m) = [(Nat.digitChar m).toUInt8] := by
    decide
  have hb := b.toNat_lt
  rw [escapedByte, List.flatMap_cons, List.flatMap_cons, List.flatMap_singleton, hdigit _ (by omega),
    hdigit _ (by omega)]
  rfl

/-- Escaping every byte is a way to write a text. -/
theorem writes_escaped (s : String) : Writes (utf8Bytes s) (utf8Bytes (escaped s)) := by
  -- the escapes are ASCII, so writing them as UTF-8 changes nothing
  have hbytes : ∀ bs : List UInt8, Writes bs ((bs.flatMap escapedByte).flatMap String.utf8EncodeChar) := by
    intro bs
    induction bs with
    | nil => exact .nil
    | cons b bs ih =>
      rw [List.flatMap_cons, List.flatMap_append, encode_escapedByte]
      exact .escape (.inl rfl) (.inl rfl) ih
  have hescaped : utf8Bytes (escaped s) = ((utf8Bytes s).flatMap escapedByte).flatMap String.utf8EncodeChar :=
    congrArg (List.flatMap String.utf8EncodeChar) String.toList_ofList
  rw [hescaped]
  exact hbytes (utf8Bytes s)

end Roster.Text
