import Roster.Proofs.Criteria.Filter
import Roster.Proofs.Integer
import Roster.Proofs.Text.Blank

/-! # The texts that give an age

A text spells a number if it consists of decimal digits with an optional sign, with any blanks around them.  It gives
that number as an age if the number fits, and no age if it is blank; all other texts are refused.

* `Text.IsInteger`: the numerals and their numbers.
* `Criteria.Spells`: texts that are numerals but for the blanks around them.
* `Criteria.GivesAge`, `Criteria.BadAge`: the age that a text gives, and why it gives none.
* `Criteria.ageOfText_eq_ok_iff`, `Criteria.ageOfText_eq_error_iff`: reading an age decides just this.
-/

namespace Roster

/-! ## Results of functions -/

theorem map_eq_ok_iff {ε α β : Type} {f : α → β} {result : Except ε α} {b : β} :
    result.map f = .ok b ↔ ∃ a, result = .ok a ∧ f a = b := by
  cases result with
  | error e => simp [Except.map]
  | ok a => simp [Except.map]

theorem map_eq_error_iff {ε α β : Type} {f : α → β} {result : Except ε α} {e : ε} :
    result.map f = .error e ↔ result = .error e := by
  cases result with
  | error e => simp [Except.map]
  | ok a => simp [Except.map]

/-! ## Numerals -/

namespace Text

/-- Decimal digits, at least one, that spell a number. -/
structure IsNatural (cs : List Char) (n : Nat) : Prop where
  nonempty : cs ≠ []
  digits : ∀ c ∈ cs, c.isDigit = true
  value : Nat.ofDigitChars 10 cs 0 = n

/-- A numeral with an optional sign that spells a number. -/
inductive IsInteger : List Char → Int → Prop where
  | unsigned {cs : List Char} {n : Nat} (h : IsNatural cs n) : IsInteger cs n
  | plus {cs : List Char} {n : Nat} (h : IsNatural cs n) : IsInteger ('+' :: cs) n
  | minus {cs : List Char} {n : Nat} (h : IsNatural cs n) : IsInteger ('-' :: cs) (-n)

theorem digitsFrom_eq_some_iff {acc : Nat} {cs : List Char} {n : Nat} :
    digitsFrom acc cs = some n ↔ (∀ c ∈ cs, c.isDigit = true) ∧ Nat.ofDigitChars 10 cs acc = n := by
  -- by induction on the digits, whatever has been read before them
  induction cs generalizing acc with
  | nil => simp [digitsFrom]
  | cons c cs ih =>
    rw [digitsFrom, Nat.ofDigitChars_cons, List.forall_mem_cons, Nat.mul_comm 10 acc]
    by_cases hc : c.isDigit = true
    · rw [if_pos hc, ih]
      simp [hc]
    · rw [if_neg hc]
      simp [hc]

theorem natural?_eq_some_iff {cs : List Char} {n : Nat} : natural? cs = some n ↔ IsNatural cs n := by
  cases cs with
  -- an empty run of digits spells no number, which is where a numeral differs from its digits
  | nil =>
    constructor
    · intro h
      cases h
    · intro h
      exact absurd rfl h.nonempty
  | cons c cs =>
    rw [natural?, digitsFrom_eq_some_iff]
    constructor
    · rintro ⟨hdigits, hvalue⟩
      exact ⟨List.cons_ne_nil c cs, hdigits, hvalue⟩
    · rintro ⟨-, hdigits, hvalue⟩
      exact ⟨hdigits, hvalue⟩

theorem integer?_eq_some_iff {cs : List Char} {n : Int} : integer? cs = some n ↔ IsInteger cs n := by
  constructor
  · intro h
    -- a plus sign, a minus sign or neither: in each case a run of digits is left
    unfold integer? at h
    split at h
    all_goals
      rcases Option.map_eq_some_iff.mp h with ⟨m, hm, rfl⟩
      rw [natural?_eq_some_iff] at hm
    · exact .plus hm
    · exact .minus hm
    · exact .unsigned hm
  · rintro (h | h | h)
    · -- a sign is no digit, so a numeral without a sign does not begin with one
      have hdigits := h.digits
      unfold integer?
      split
      · exact absurd (hdigits _ (List.mem_cons_self ..)) (by decide)
      · exact absurd (hdigits _ (List.mem_cons_self ..)) (by decide)
      · rw [natural?_eq_some_iff.mpr h]
        rfl
    · rw [integer?, natural?_eq_some_iff.mpr h]
      rfl
    · rw [integer?, natural?_eq_some_iff.mpr h]
      rfl

/-! ## No blanks in a numeral -/

theorem not_isBlankChar_of_isDigit {c : Char} (h : c.isDigit = true) : isBlankChar c = false := by
  have hrange : 48 ≤ c.toNat ∧ c.toNat ≤ 57 := by
    simpa [Char.isDigit, UInt32.le_iff_toNat_le] using h
  simp only [isBlankChar, blankRanges, List.any_cons, List.any_nil, Bool.or_false, Bool.or_eq_false_iff,
    Bool.and_eq_false_iff, decide_eq_false_iff_not]
  omega

theorem IsInteger.nonempty {cs : List Char} {n : Int} (h : IsInteger cs n) : cs ≠ [] := by
  cases h with
  | unsigned h => exact h.nonempty
  | plus | minus => exact List.cons_ne_nil _ _

theorem IsInteger.not_blank {cs : List Char} {n : Int} (h : IsInteger cs n) : ∀ c ∈ cs, isBlankChar c = false := by
  cases h with
  | unsigned h => exact fun c hc => not_isBlankChar_of_isDigit (h.digits c hc)
  | plus h | minus h =>
    rw [List.forall_mem_cons]
    exact ⟨by decide, fun c hc => not_isBlankChar_of_isDigit (h.digits c hc)⟩

end Text

/-! ## Ages -/

namespace Criteria

/-- The text is a numeral for the number, with any blanks around it. -/
def Spells (s : String) (n : Int) : Prop :=
  ∃ before numeral after, s.toList = before ++ numeral ++ after ∧ (∀ c ∈ before, Text.isBlankChar c = true) ∧
    Text.IsInteger numeral n ∧ ∀ c ∈ after, Text.isBlankChar c = true

/-- The text gives an age, or it is blank and gives none. -/
inductive GivesAge : String → Option Int32 → Prop where
  | blank {s : String} (h : ¬HasText s) : GivesAge s none
  | number {s : String} {age : Int32} (h : Spells s age.toInt) : GivesAge s (some age)

/-- Why a text gives no age: it has some text but spells no number of 64 bits, or the number that it spells is none of
32 bits. -/
inductive BadAge : String → AgeFault → Prop where
  | unreadable {s : String} (htext : HasText s) (h : ∀ n : Int64, ¬Spells s n.toInt) : BadAge s (.unreadable s)
  | outOfRange {s : String} {n : Int64} (h : Spells s n.toInt) (hage : ∀ age : Int32, age.toInt ≠ n.toInt) :
      BadAge s (.outOfRange n)

theorem spells_iff {s : String} {n : Int} : Spells s n ↔ Text.integer? (Text.trimChars s.toList) = some n := by
  rw [Text.integer?_eq_some_iff]
  constructor
  -- the numeral has no blanks of its own, so what is trimmed off are those around it
  · rintro ⟨before, numeral, after, hs, hbefore, hnumeral, hafter⟩
    have hfirst : ∀ c ∈ numeral.head?, Text.isBlankChar c = false :=
      fun c hc => hnumeral.not_blank c (List.mem_of_head? hc)
    have hlast : ∀ c ∈ numeral.getLast?, Text.isBlankChar c = false :=
      fun c hc => hnumeral.not_blank c (List.mem_of_getLast? hc)
    rw [hs, Text.trimChars_append hbefore hfirst hlast hafter]
    exact hnumeral
  · intro h
    -- conversely, what trimming leaves is the numeral
    rcases (Text.trimmed_trimChars s.toList).around with ⟨before, after, hs, hbefore, hafter⟩
    exact ⟨before, _, after, hs, hbefore, h, hafter⟩

/-- What spells a number has some text. -/
theorem Spells.hasText {s : String} {n : Int} (h : Spells s n) : HasText s := by
  rcases h with ⟨before, numeral, after, hs, -, hnumeral, -⟩
  rcases List.exists_mem_of_ne_nil numeral hnumeral.nonempty with ⟨c, hc⟩
  refine ⟨c, ?_, hnumeral.not_blank c hc⟩
  rw [hs, List.mem_append, List.mem_append]
  exact .inl (.inr hc)

theorem ageOfText_of_hasText {s : String} (h : HasText s) :
    ageOfText s =
      match (Text.integer? (Text.trimChars s.toList)).bind Integer.to64? with
      | some n => (ageOfInt n).map some
      | none => .error (.unreadable s) := by
  rw [ageOfText, (isBlank_eq_false_iff s).mpr h]
  rfl

theorem ageOfText_of_spells {s : String} {n : Int64} (h : Spells s n.toInt) :
    ageOfText s = (ageOfInt n).map some := by
  rw [ageOfText_of_hasText h.hasText, spells_iff.mp h, Option.bind_some, Integer.to64?_eq_some_iff.mpr rfl]

theorem ageOfInt_of_fits {n : Int64} {age : Int32} (h : age.toInt = n.toInt) : ageOfInt n = .ok age := by
  rw [ageOfInt, Integer.to32?_eq_some_iff.mpr h]

theorem ageOfInt_of_not_fits {n : Int64} (h : ∀ age : Int32, age.toInt ≠ n.toInt) :
    ageOfInt n = .error (.outOfRange n) := by
  have hnone : Integer.to32? n.toInt = none := by
    rw [Option.eq_none_iff_forall_ne_some]
    intro age hage
    exact h age (Integer.to32?_eq_some_iff.mp hage)
  rw [ageOfInt, hnone]

theorem GivesAge.ageOfText_eq {s : String} {age : Option Int32} (h : GivesAge s age) : ageOfText s = .ok age := by
  cases h with
  | blank h => rw [ageOfText, if_pos ((isBlank_eq_true_iff s).mpr h)]
  | @number age h =>
    -- a number that fits 32 bits fits 64 bits all the more
    have hwide : age.toInt64.toInt = age.toInt := Int32.toInt_toInt64 age
    rw [← hwide] at h
    rw [ageOfText_of_spells h, ageOfInt_of_fits hwide.symm]
    rfl

theorem BadAge.ageOfText_eq {s : String} {fault : AgeFault} (h : BadAge s fault) : ageOfText s = .error fault := by
  cases h with
  | unreadable htext h =>
    -- a number that the text spells would be one of 64 bits
    have hnone : (Text.integer? (Text.trimChars s.toList)).bind Integer.to64? = none := by
      rw [Option.bind_eq_none_iff]
      intro m hm
      rw [Option.eq_none_iff_forall_ne_some]
      intro n hn
      rw [← Integer.to64?_eq_some_iff.mp hn] at hm
      exact h n (spells_iff.mpr hm)
    rw [ageOfText_of_hasText htext, hnone]
  | outOfRange h hage =>
    rw [ageOfText_of_spells h, ageOfInt_of_not_fits hage]
    rfl

theorem GivesAge.unique {s : String} {age other : Option Int32} (h : GivesAge s age) (hother : GivesAge s other) :
    age = other :=
  Except.ok.inj (h.ageOfText_eq.symm.trans hother.ageOfText_eq)

theorem BadAge.unique {s : String} {fault other : AgeFault} (h : BadAge s fault) (hother : BadAge s other) :
    fault = other :=
  Except.error.inj (h.ageOfText_eq.symm.trans hother.ageOfText_eq)

theorem BadAge.not_givesAge {s : String} {fault : AgeFault} (h : BadAge s fault) (age : Option Int32) :
    ¬GivesAge s age := by
  intro hage
  have heq := h.ageOfText_eq
  rw [hage.ageOfText_eq] at heq
  cases heq

/-- Every text gives an age or no age, or it is refused for one reason. -/
theorem givesAge_or_badAge (s : String) : (∃ age, GivesAge s age) ∨ ∃ fault, BadAge s fault := by
  -- first whether it is blank, then whether it is a number at all, then whether that number is an age
  by_cases htext : HasText s
  · by_cases hn : ∃ n : Int64, Spells s n.toInt
    · rcases hn with ⟨n, hn⟩
      by_cases hage : ∃ age : Int32, age.toInt = n.toInt
      · rcases hage with ⟨age, hage⟩
        rw [← hage] at hn
        exact .inl ⟨_, .number hn⟩
      · exact .inr ⟨_, .outOfRange hn (not_exists.mp hage)⟩
    · exact .inr ⟨_, .unreadable htext (not_exists.mp hn)⟩
  · exact .inl ⟨_, .blank htext⟩

/-- A text is read as the age that it gives. -/
theorem ageOfText_eq_ok_iff {s : String} {age : Option Int32} : ageOfText s = .ok age ↔ GivesAge s age := by
  constructor
  · intro h
    -- every text is read in one of the two ways, and the result tells in which
    rcases givesAge_or_badAge s with ⟨other, hother⟩ | ⟨fault, hfault⟩
    · rw [hother.ageOfText_eq] at h
      exact Except.ok.inj h ▸ hother
    · rw [hfault.ageOfText_eq] at h
      cases h
  · exact GivesAge.ageOfText_eq

/-- A text is refused for the reason why it gives no age. -/
theorem ageOfText_eq_error_iff {s : String} {fault : AgeFault} : ageOfText s = .error fault ↔ BadAge s fault := by
  constructor
  · intro h
    rcases givesAge_or_badAge s with ⟨age, hage⟩ | ⟨other, hother⟩
    · rw [hage.ageOfText_eq] at h
      cases h
    · rw [hother.ageOfText_eq] at h
      exact Except.error.inj h ▸ hother
  · exact BadAge.ageOfText_eq

end Criteria

end Roster
