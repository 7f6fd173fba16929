import Roster.Text.Blank

/-! # What trimming leaves

Trimming takes the blanks away at both ends and nothing else, so what is left neither begins nor ends with a blank.

* `Trimmed`: the characters without the blanks around them.
* `trimChars_eq_iff`: trimming gives just these.
* `isEmpty_trimChars`: trimming leaves nothing of blank texts, and of no others.
-/

namespace Roster.Text

/-- The characters are these, but for blanks around them, and these neither begin nor end with a blank. -/
structure Trimmed (cs core : List Char) : Prop where
  around : ∃ before after, cs = before ++ core ++ after ∧ (∀ c ∈ before, isBlankChar c = true) ∧
    ∀ c ∈ after, isBlankChar c = true
  first : ∀ c ∈ core.head?, isBlankChar c = false
  last : ∀ c ∈ core.getLast?, isBlankChar c = false

theorem dropWhile_append_of_head? {core : List Char} (hne : core ≠ []) (hfirst : ∀ c ∈ core.head?, isBlankChar c = false)
    (rest : List Char) : (core ++ rest).dropWhile isBlankChar = core ++ rest := by
  cases core with
  | nil => exact absurd rfl hne
  | cons c core => rw [List.cons_append, List.dropWhile_cons, hfirst c rfl, if_neg Bool.false_ne_true]

/-- Trimming leaves what neither begins nor ends with a blank and is surrounded by nothing but blanks. -/
theorem trimChars_append {before core after : List Char} (hbefore : ∀ c ∈ before, isBlankChar c = true)
    (hfirst : ∀ c ∈ core.head?, isBlankChar c = false) (hlast : ∀ c ∈ core.getLast?, isBlankChar c = false)
    (hafter : ∀ c ∈ after, isBlankChar c = true) : trimChars (before ++ core ++ after) = core := by
  rw [trimChars, List.append_assoc, List.dropWhile_append_of_pos hbefore]
  -- without a core all is blank, and the first pass removes it
  by_cases hne : core = []
  · rw [hne, List.nil_append, ← List.append_nil after, List.dropWhile_append_of_pos hafter]
    rfl
  · have hback := dropWhile_append_of_head? (mt List.reverse_eq_nil_iff.mp hne)
      (fun c hc => hlast c (by rwa [List.head?_reverse] at hc)) []
    rw [List.append_nil] at hback
    rw [dropWhile_append_of_head? hne hfirst, List.reverse_append,
      List.dropWhile_append_of_pos fun c hc => hafter c (List.mem_reverse.mp hc), hback, List.reverse_reverse]

theorem head?_dropWhile_isBlankChar (cs : List Char) :
    ∀ c ∈ (cs.dropWhile isBlankChar).head?, isBlankChar c = false := by
  intro c hc
  have hnot := List.head?_dropWhile_not isBlankChar cs
  rw [Option.mem_def.mp hc] at hnot
  exact hnot

/-- What trimming takes away are blanks at both ends, and it takes away all of them. -/
theorem trimmed_trimChars (cs : List Char) : Trimmed cs (trimChars cs) := by
  let rest := cs.dropWhile isBlankChar
  -- the blanks at the end are those at the beginning of the reverse
  have hrest : rest = trimChars cs ++ (rest.reverse.takeWhile isBlankChar).reverse := by
    rw [trimChars, ← List.reverse_append, List.takeWhile_append_dropWhile, List.reverse_reverse]
  refine ⟨⟨cs.takeWhile isBlankChar, (rest.reverse.takeWhile isBlankChar).reverse, ?_, ?_, ?_⟩, ?_, ?_⟩
  · rw [List.append_assoc, ← hrest, List.takeWhile_append_dropWhile]
  · exact List.all_eq_true.mp List.all_takeWhile
  · intro c hc
    exact List.all_eq_true.mp List.all_takeWhile c (List.mem_reverse.mp hc)
  · intro c hc
    apply head?_dropWhile_isBlankChar cs
    show c ∈ rest.head?
    rw [hrest, List.head?_append, Option.mem_def.mp hc]
    rfl
  · intro c hc
    rw [trimChars, List.getLast?_reverse] at hc
    exact head?_dropWhile_isBlankChar _ c hc

/-- Trimming gives the characters without the blanks around them. -/
theorem trimChars_eq_iff {cs core : List Char} : trimChars cs = core ↔ Trimmed cs core := by
  constructor
  · rintro rfl
    exact trimmed_trimChars cs
  · rintro ⟨⟨before, after, rfl, hbefore, hafter⟩, hfirst, hlast⟩
    exact trimChars_append hbefore hfirst hlast hafter

/-- Nothing is left when all characters are blank. -/
theorem trimmed_nil_iff {cs : List Char} : Trimmed cs [] ↔ ∀ c ∈ cs, isBlankChar c = true := by
  constructor
  · rintro ⟨⟨before, after, rfl, hbefore, hafter⟩, -, -⟩ c hc
    rw [List.append_nil] at hc
    rcases List.mem_append.mp hc with hc | hc
    · exact hbefore c hc
    · exact hafter c hc
  · intro h
    refine ⟨⟨cs, [], by simp, h, by simp⟩, by simp, by simp⟩

/-- Trimming leaves nothing of a text exactly when the text is blank. -/
theorem isEmpty_trimChars (s : String) : (trimChars s.toList).isEmpty = isBlank s := by
  rw [Bool.eq_iff_iff, List.isEmpty_iff, trimChars_eq_iff, trimmed_nil_iff, isBlank, List.all_eq_true]

end Roster.Text
