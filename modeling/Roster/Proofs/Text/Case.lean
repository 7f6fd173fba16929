import Mathlib
import Roster.Text.Case

/-! # Texts that differ in letter case only

* `SameLetter`: a character and itself, or a letter from A to Z in both cases.
* `IgnoringCase`: texts that are the same, letter by letter.
* `ignoringCase_iff`: these are the texts with the same lower case.
-/

namespace Roster.Text

/-- The characters are the same, or they are one letter from A to Z in different case. -/
inductive SameLetter : Char → Char → Prop where
  | same (c : Char) : SameLetter c c
  | capital {c d : Char} (hc : 'A' ≤ c ∧ c ≤ 'Z') (hd : d.toNat = c.toNat + 32) : SameLetter c d
  | small {c d : Char} (hd : 'A' ≤ d ∧ d ≤ 'Z') (hc : c.toNat = d.toNat + 32) : SameLetter c d

/-- The texts are the same if the case of the letters from A to Z is ignored. -/
def IgnoringCase (s t : String) : Prop :=
  List.Forall₂ SameLetter s.toList t.toList

/-! ## Lower case -/

theorem isUpper_iff {c : Char} : c.isUpper = true ↔ 'A' ≤ c ∧ c ≤ 'Z' := by
  simp [Char.isUpper, Char.le_def]

theorem isUpper_iff_toNat {c : Char} : c.isUpper = true ↔ 65 ≤ c.toNat ∧ c.toNat ≤ 90 := by
  simp [Char.isUpper, UInt32.le_iff_toNat_le]

/-- A capital letter comes 32 places before its small one. -/
theorem toNat_toLower {c : Char} (h : c.isUpper = true) : c.toLower.toNat = c.toNat + 32 := by
  have hrange := isUpper_iff_toNat.mp h
  rw [Char.toLower_eq_of_isUpper h, Char.toNat_ofNat, if_pos]
  exact .inl (by omega)

/-- The character 32 places behind a capital letter is no capital letter. -/
theorem not_isUpper_of_toNat {c d : Char} (hc : c.isUpper = true) (hd : d.toNat = c.toNat + 32) :
    ¬d.isUpper = true := by
  rw [isUpper_iff_toNat] at hc ⊢
  omega

theorem sameLetter_iff {c d : Char} : SameLetter c d ↔ c.toLower = d.toLower := by
  constructor
  · rintro (_ | ⟨hc, hd⟩ | ⟨hd, hc⟩)
    case same => rfl
    case capital =>
      have hupper := isUpper_iff.mpr hc
      rw [Char.toLower_eq_of_not_isUpper (not_isUpper_of_toNat hupper hd), ← Char.toNat_inj, toNat_toLower hupper, hd]
    case small =>
      have hupper := isUpper_iff.mpr hd
      rw [Char.toLower_eq_of_not_isUpper (not_isUpper_of_toNat hupper hc), ← Char.toNat_inj, toNat_toLower hupper, hc]
  · intro h
    -- where one of them is a capital letter only, its lower case is the other one
    by_cases hc : c.isUpper = true <;> by_cases hd : d.isUpper = true
    · have hcodes := congrArg Char.toNat h
      rw [toNat_toLower hc, toNat_toLower hd, Nat.add_right_cancel_iff, Char.toNat_inj] at hcodes
      exact hcodes ▸ .same c
    · rw [Char.toLower_eq_of_not_isUpper hd] at h
      exact .capital (isUpper_iff.mp hc) (h ▸ toNat_toLower hc)
    · rw [Char.toLower_eq_of_not_isUpper hc] at h
      exact .small (isUpper_iff.mp hd) (h ▸ toNat_toLower hd)
    · rw [Char.toLower_eq_of_not_isUpper hc, Char.toLower_eq_of_not_isUpper hd] at h
      exact h ▸ .same c

/-- Texts are the same but for the case of letters if they have the same lower case. -/
theorem ignoringCase_iff {s t : String} : IgnoringCase s t ↔ lower s = lower t := by
  have hsame : SameLetter = fun c d => c.toLower = d.toLower := by
    funext c d
    exact propext sameLetter_iff
  rw [IgnoringCase, hsame, lower, lower, String.ofList_inj, ← List.forall₂_eq_eq_eq, List.forall₂_map_left_iff,
    List.forall₂_map_right_iff]

end Roster.Text
