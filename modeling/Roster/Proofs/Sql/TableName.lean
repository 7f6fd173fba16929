import Mathlib.Tactic.IntervalCases
import Roster.Proofs.Text.Utf8
import Roster.Sql.TableName

/-! # The names that a table may have

A table has a short plain identifier as its name that is no keyword.  A name with `_` in it is never a keyword, so what a
suffix is added to may well be one.

* `IsIdentifier`: a small letter of the Latin alphabet, and then such letters, digits and underscores.
* `checkName_eq_ok_iff`: the names that the check lets pass.
* `isTableName_append`: when a stem and a suffix give such a name.
-/

namespace Roster.Sql

/-! ## Identifiers -/

/-- The letters that a name may contain. -/
def letters : List Char :=
  "abcdefghijklmnopqrstuvwxyz".toList

/-- The characters that may follow the first letter of a name. -/
def nameChars : List Char :=
  letters ++ "0123456789_".toList

/-- The characters begin with a letter and go on with letters, digits and underscores. -/
def IsIdentifier (cs : List Char) : Prop :=
  ∃ first rest, cs = first :: rest ∧ first ∈ letters ∧ ∀ c ∈ rest, c ∈ nameChars

theorem isNameStart_iff {c : Char} : isNameStart c = true ↔ c ∈ letters := by
  constructor
  · intro h
    have hrange : 97 ≤ c.toNat ∧ c.toNat ≤ 122 := by
      simpa [isNameStart, Char.le_def, UInt32.le_iff_toNat_le] using h
    rcases hrange with ⟨hlow, hhigh⟩
    -- a range of characters is finite, so each of them is looked at
    rw [← Char.ofNat_toNat c]
    generalize c.toNat = n at hlow hhigh
    interval_cases n <;> decide
  · have hall : letters.all isNameStart = true := by decide
    exact List.all_eq_true.mp hall c

theorem isNameRest_iff {c : Char} : isNameRest c = true ↔ c ∈ nameChars := by
  constructor
  · intro h
    rw [isNameRest, Bool.or_eq_true, Bool.or_eq_true, isNameStart_iff] at h
    -- a letter, a digit or the underscore
    rcases h with (hletter | hdigit) | hunderscore
    · exact List.mem_append_left _ hletter
    · have hrange : 48 ≤ c.toNat ∧ c.toNat ≤ 57 := by
        simpa [Char.le_def, UInt32.le_iff_toNat_le] using hdigit
      rcases hrange with ⟨hlow, hhigh⟩
      rw [← Char.ofNat_toNat c]
      generalize c.toNat = n at hlow hhigh
      interval_cases n <;> decide
    · rw [eq_of_beq hunderscore]
      decide
  · have hall : nameChars.all isNameRest = true := by decide
    exact List.all_eq_true.mp hall c

theorem isPlain_iff {cs : List Char} : isPlain cs = true ↔ IsIdentifier cs := by
  cases cs with
  | nil =>
    constructor
    · intro h
      cases h
    · rintro ⟨_, _, h, -⟩
      cases h
  | cons c cs =>
    rw [isPlain, Bool.and_eq_true, isNameStart_iff, List.all_eq_true]
    constructor
    · rintro ⟨hfirst, hrest⟩
      -- an identifier is what begins with one kind of character and goes on with the other
      exact ⟨c, cs, rfl, hfirst, fun d hd => isNameRest_iff.mp (hrest d hd)⟩
    · rintro ⟨_, _, h, hfirst, hrest⟩
      cases h
      exact ⟨hfirst, fun d hd => isNameRest_iff.mpr (hrest d hd)⟩

/-- All characters of an identifier are among those of names. -/
theorem IsIdentifier.forall_mem {cs : List Char} (h : IsIdentifier cs) : ∀ c ∈ cs, c ∈ nameChars := by
  rcases h with ⟨first, rest, rfl, hfirst, hrest⟩
  rw [List.forall_mem_cons]
  exact ⟨List.mem_append_left _ hfirst, hrest⟩

/-- An identifier stays one when characters of names follow. -/
theorem isIdentifier_append {cs suffix : List Char} (hne : cs ≠ []) (hsuffix : ∀ c ∈ suffix, c ∈ nameChars) :
    IsIdentifier (cs ++ suffix) ↔ IsIdentifier cs := by
  -- the first character is one of the stem, and the suffix only adds to the rest
  rcases List.exists_cons_of_ne_nil hne with ⟨c, cs, rfl⟩
  constructor
  · rintro ⟨_, _, h, hfirst, hrest⟩
    cases h
    exact ⟨c, cs, rfl, hfirst, fun d hd => hrest d (List.mem_append_left _ hd)⟩
  · rintro ⟨_, _, h, hfirst, hrest⟩
    cases h
    refine ⟨c, cs ++ suffix, rfl, hfirst, ?_⟩
    intro d hd
    rcases List.mem_append.mp hd with hd | hd
    · exact hrest d hd
    · exact hsuffix d hd

/-! ## Names of tables -/

/-- A name for a table: an identifier of 1 to 63 bytes that is no keyword in upper case. -/
structure IsTableName (name : String) : Prop where
  nonempty : 1 ≤ (Text.utf8Bytes name).length
  fits : (Text.utf8Bytes name).length ≤ 63
  identifier : IsIdentifier name.toList
  unreserved : Text.upper name ∉ reservedWords

theorem length_utf8Bytes_pos {name : String} (h : name ≠ "") : 1 ≤ (Text.utf8Bytes name).length := by
  apply List.length_pos_iff.mpr
  intro hbytes
  exact h (Text.utf8Bytes_inj.mp hbytes)

theorem isTableName_of_checkName {name : String} (h : checkName name = .ok ()) : IsTableName name := by
  unfold checkName at h
  -- each check that does not refuse leaves the opposite of what it looks for
  split at h
  · cases h
  next hnonempty =>
  split at h
  · cases h
  next hfits =>
  split at h
  · cases h
  next hplain =>
  split at h
  · cases h
  next hfree =>
  rw [Bool.not_eq_true', Bool.not_eq_false] at hplain
  exact ⟨length_utf8Bytes_pos hnonempty, Nat.le_of_not_lt hfits, isPlain_iff.mp hplain,
    mt List.contains_iff_mem.mpr hfree⟩

/-- The check of a name lets the names for tables pass and no others. -/
theorem checkName_eq_ok_iff {name : String} : checkName name = .ok () ↔ IsTableName name := by
  refine ⟨isTableName_of_checkName, ?_⟩
  rintro ⟨hnonempty, hfits, hidentifier, hfree⟩
  have hne : name ≠ "" := by
    rintro rfl
    cases hnonempty
  have hroom : ¬maxNameBytes < (Text.utf8Bytes name).length := Nat.not_lt_of_le hfits
  rw [checkName, if_neg hne, if_neg hroom, isPlain_iff.mpr hidentifier, Bool.not_true,
    if_neg Bool.false_ne_true, if_neg (mt List.contains_iff_mem.mp hfree)]

/-- A name for a table consists of ASCII characters and has no line break. -/
theorem IsTableName.forall_mem {name : String} (h : IsTableName name) :
    ∀ c ∈ name.toList, c.toNat < 128 ∧ c ≠ '\n' := by
  have hchars : nameChars.all (fun c => c.toNat < 128 ∧ c ≠ '\n') = true := by decide
  intro c hc
  exact of_decide_eq_true (List.all_eq_true.mp hchars c (h.identifier.forall_mem c hc))

/-! ## Stems and suffixes -/

/-- No keyword contains an underscore, and upper case leaves underscores as they are. -/
theorem upper_not_mem_reservedWords {name : String} (h : '_' ∈ name.toList) : Text.upper name ∉ reservedWords := by
  have hkeywords : ∀ word ∈ reservedWords, '_' ∉ word.toList := by decide
  intro hmem
  apply hkeywords _ hmem
  rw [Text.upper, String.toList_ofList]
  exact List.mem_map_of_mem h

/-- A stem with an underscore and more after it is a name for a table if the stem is an identifier and there is room for
all of it. -/
theorem isTableName_append {stem suffix : String} {rest : List Char} (hsuffix : suffix.toList = '_' :: rest)
    (hrest : rest.all isNameRest = true) :
    IsTableName (stem ++ suffix) ↔
      IsIdentifier stem.toList ∧ (Text.utf8Bytes stem).length + (Text.utf8Bytes suffix).length ≤ 63 := by
  -- a keyword has no underscore, so no ending can make one of a stem
  have hunderscore : '_' ∈ (stem ++ suffix).toList := by
    rw [String.toList_append, hsuffix]
    exact List.mem_append_right _ List.mem_cons_self
  have hchars : ∀ c ∈ suffix.toList, c ∈ nameChars := by
    rw [hsuffix, List.forall_mem_cons]
    exact ⟨by decide, fun c hc => isNameRest_iff.mp (List.all_eq_true.mp hrest c hc)⟩
  have hlength : (Text.utf8Bytes (stem ++ suffix)).length =
      (Text.utf8Bytes stem).length + (Text.utf8Bytes suffix).length := by
    rw [Text.utf8Bytes_append, List.length_append]
  have hidentifier : IsIdentifier (stem ++ suffix).toList ↔ IsIdentifier stem.toList := by
    rw [String.toList_append]
    by_cases hstem : stem.toList = []
    · -- without a stem the underscore would be the first character
      rw [hstem, List.nil_append, hsuffix]
      constructor
      · rintro ⟨first, _, h, hfirst, -⟩
        cases h
        exact absurd hfirst (by decide)
      · rintro ⟨_, _, h, -⟩
        cases h
    · exact isIdentifier_append hstem hchars
  constructor
  · rintro ⟨-, hfits, hname, -⟩
    rw [hlength] at hfits
    exact ⟨hidentifier.mp hname, hfits⟩
  · rintro ⟨hstem, hfits⟩
    refine ⟨length_utf8Bytes_pos ?_, ?_, hidentifier.mpr hstem, upper_not_mem_reservedWords hunderscore⟩
    · intro hempty
      rw [hempty] at hunderscore
      cases hunderscore
    · rw [hlength]
      exact hfits

end Roster.Sql
