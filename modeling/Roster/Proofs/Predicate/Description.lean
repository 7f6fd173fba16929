import Roster.Predicate.Description
import Roster.Proofs.Criteria.Age
import Roster.Proofs.Predicate.Leaves
import Roster.Proofs.Sql.Written

/-! # Reading descriptions of predicates

The text that describes a predicate for people, read by the grammar of conditions, means what the predicate means.  Few
parentheses are written, and literals stand in the text as they are, so this rests on the precedence of the connectives
and on the marks around texts, whatever these hold.

* `Leaf.Reads`: a comparison of a field with a literal.
* `ofFormula`: the predicate that a condition stands for.
* `Describes`: a text that reads as a condition with a given truth, with one lemma for each rule of the grammar.
* `describe_reading`: the description of a predicate has one reading only, and it has the predicate's truth.
-/

namespace Roster.Predicate

open Condition (Token Formula Level operandLevel)
open Sql (Lexeme Spells Written ReadsAs joiner emptyGroup)

/-! ## Comparisons -/

/-- The lexemes of a literal: a text in single quotes, or a numeral with a minus sign before it if it is negative. -/
inductive ReadsValue : List Lexeme → Value → Prop where
  | text (s : String) : ReadsValue [.literal s] (.text s)
  | natural {digits : String} {k : Nat} {n : Int64} (h : Text.IsNatural digits.toList k) (hn : n.toInt = k) :
      ReadsValue [.word digits] (.int n)
  | negative {digits : String} {k : Nat} {n : Int64} (h : Text.IsNatural digits.toList k) (hn : n.toInt = -k) :
      ReadsValue [.symbol "-", .word digits] (.int n)

/-- The lexemes of a comparison of a field with a literal. -/
inductive Leaf.Reads : List Lexeme → Leaf → Prop where
  | comparison (field : Field) (op : Comparison) {ls : List Lexeme} {value : Value} (h : ReadsValue ls value) :
      Reads (.word field.name :: .symbol op.symbol :: ls) ⟨field, op, value⟩

theorem ReadsValue.unique {ls : List Lexeme} {a b : Value} (ha : ReadsValue ls a) (hb : ReadsValue ls b) : a = b := by
  -- the first lexeme tells which kind of literal it is
  cases ha with
  | text s =>
    cases hb with
    | text => rfl
  | natural h hn =>
    cases hb with
    | natural h' hn' =>
      have hk := h.value.symm.trans h'.value
      exact congrArg Value.int (Int64.toInt_inj.mp (by rw [hn, hn', hk]))
  | negative h hn =>
    cases hb with
    | negative h' hn' =>
      have hk := h.value.symm.trans h'.value
      exact congrArg Value.int (Int64.toInt_inj.mp (by rw [hn, hn', hk]))

/-- No lexemes read as two comparisons. -/
theorem Leaf.Reads.unique (ls : List Lexeme) (a b : Leaf) (ha : Leaf.Reads ls a) (hb : Leaf.Reads ls b) : a = b := by
  -- the names of fields differ
  have hfield : ∀ f g : Field, f.name = g.name → f = g := by
    intro f g h
    cases f <;> cases g <;> first | rfl | exact absurd h (by decide)
  obtain ⟨field, op, value⟩ := a
  obtain ⟨field', op', value'⟩ := b
  -- the readings are of the same lexemes, but each is taken apart with a variable for them
  generalize hms : ls = ms at hb
  cases ha with
  | comparison _ _ hvalue =>
    cases hb with
    | comparison _ _ hvalue' =>
      obtain ⟨hname, hsymbol, rfl⟩ : Lexeme.word field.name = .word field'.name ∧
          Lexeme.symbol op.symbol = .symbol op'.symbol ∧ _ := by
        simpa using hms
      rw [hfield _ _ (Lexeme.word.inj hname), Sql.symbol_injective (Lexeme.symbol.inj hsymbol), hvalue.unique hvalue']

/-! ## Literals as they are written -/

theorem isNatural_repr (n : Nat) : Text.IsNatural n.repr.toList n := by
  rw [Nat.toList_repr]
  exact ⟨Nat.toDigits_ne_nil, fun _ hc => Sql.isDigit_of_mem_toDigits hc, Nat.ofDigitChars_ten_toDigits⟩

/-- A text in single quotes is one lexeme, whatever it holds. -/
theorem spells_text (s : String) : Spells (Value.text s).literal.toList [.literal s] := by
  intro rest hrest
  -- quotes inside are doubled, as in a quotation of a statement
  have htext : (Value.text s).literal.toList ++ rest =
      '\'' :: (s.toList.flatMap fun c => if c = '\'' then ['\'', '\''] else [c]) ++ '\'' :: rest := by
    rw [Value.literal, String.toList_append, String.toList_append, String.toList_ofList]
    simp
  rw [htext]
  exact Sql.lexFrom_quotation .single s (hrest.head?_ne .single)

/-- The lexemes of a literal. -/
theorem exists_spells_literal (value : Value) :
    ∃ ls, Spells value.literal.toList ls ∧ ls.map Lexeme.token = ls.map Token.other ∧ ReadsValue ls value := by
  cases value with
  | text s => exact ⟨[.literal s], spells_text s, rfl, .text s⟩
  | int n =>
    have hspells : Spells (Value.int n).literal.toList (Sql.numeral n.toInt) := Sql.spells_numeral n.toInt
    -- a literal has no keywords, and it is read as the value
    refine ⟨Sql.numeral n.toInt, hspells, ?_, ?_⟩
    · have hdigits : ∀ k : Nat, (Lexeme.word k.repr).token = .other (.word k.repr) :=
        fun k => Sql.token_digits (isNatural_repr k).digits
      cases n.toInt with
      | ofNat k => exact congrArg (· :: []) (hdigits k)
      | negSucc k => exact congrArg (_ :: · :: []) (hdigits k.succ)
    · cases hn : n.toInt with
      | ofNat k => exact .natural (isNatural_repr k) hn
      | negSucc k => exact .negative (isNatural_repr k.succ) hn

/-! ## What a condition stands for -/

/-- The predicate that a condition stands for. -/
def ofFormula : Formula Leaf → Predicate
  | .constant true => .always
  | .constant false => .any []
  | .atom leaf => leaf.predicate
  | .enclosed term => ofFormula term
  | .not term => .not (ofFormula term)
  | .join .and left right => .all [ofFormula left, ofFormula right]
  | .join .or left right => .any [ofFormula left, ofFormula right]

/-- It is true where the condition is. -/
theorem truth_ofFormula (r : Record) (e : Formula Leaf) :
    truth r (ofFormula e) = e.truth fun leaf => truth r leaf.predicate := by
  -- a formula joins two conditions at a time, a predicate any number of terms
  have hpair : ∀ (k : Connective) (a b : Truth), k.group [a, b] = k.join a b := by
    intro k a b
    rw [Connective.group_cons, Connective.group_cons, Connective.group_nil, Connective.join_neutral]
  induction e with
  | constant b => cases b <;> simp [ofFormula, Formula.truth, Truth.ofBool, Connective.decisive, Truth.negate]
  | atom leaf => rfl
  | enclosed term ih => exact ih
  | not term ih => rw [ofFormula, truth_not, ih, Formula.truth]
  | join k left right ihl ihr =>
    cases k with
    | and => rw [ofFormula, truth_all, List.map_cons, List.map_singleton, hpair, ihl, ihr, Formula.truth]
    | or => rw [ofFormula, truth_any, List.map_cons, List.map_singleton, hpair, ihl, ihr, Formula.truth]

/-! ## What texts describe -/

/-- The text reads at the level as a condition with the truth `f r` on every record. -/
def Describes (l : Level) (text : String) (f : Record → Truth) : Prop :=
  ∃ e, Written Leaf.Reads l text.toList e ∧ ∀ r, truth r (ofFormula e) = f r

theorem describes_constant (b : Bool) : Describes .primary (if b then "TRUE" else "FALSE") (fun _ => .ofBool b) := by
  refine ⟨.constant b, Sql.written_constant b, ?_⟩
  intro r
  rw [truth_ofFormula]
  rfl

theorem describes_comparison (leaf : Leaf) :
    Describes .primary (leaf.field.name ++ " " ++ leaf.op.symbol ++ " " ++ leaf.value.literal)
      (fun r => truth r leaf.predicate) := by
  -- the field and the comparison are separated by blanks, and the literal comes last
  obtain ⟨field, op, value⟩ := leaf
  obtain ⟨ls, hspells, hothers, hvalue⟩ := exists_spells_literal value
  refine ⟨.atom ⟨field, op, value⟩, ?_, fun r => rfl⟩
  have hfield : Spells field.name.toList [.word field.name] := by
    apply Sql.spells_word <;> cases field <;> decide
  have htext : (field.name ++ " " ++ op.symbol ++ " " ++ value.literal).toList =
      field.name.toList ++ (" " ++ op.symbol ++ " ").toList ++ value.literal.toList := by
    simp
  have htokens : ([Lexeme.word field.name] ++ [Lexeme.symbol op.symbol] ++ ls).map Lexeme.token =
      ([Lexeme.word field.name] ++ [Lexeme.symbol op.symbol] ++ ls).map Token.other := by
    rw [List.map_append, List.map_append, hothers]
    cases field <;> cases op <;> rfl
  rw [htext]
  exact Sql.written_atom ((hfield.append_separates (Sql.separates_operator op)).append_spells hspells) htokens
    (.comparison field op hvalue)

/-- A description in parentheses can stand anywhere. -/
theorem Describes.enclosed {text : String} {f : Record → Truth} (h : Describes (.group .or) text f) :
    Describes .primary ("(" ++ text ++ ")") f := by
  obtain ⟨e, hwritten, htruth⟩ := h
  refine ⟨.enclosed e, ?_, htruth⟩
  rw [String.toList_append, String.toList_append, List.append_assoc]
  exact hwritten.enclosed

theorem Describes.not {text : String} {f : Record → Truth} (h : Describes .factor text f) :
    Describes .factor ("NOT " ++ text) (fun r => (f r).negate) := by
  obtain ⟨e, hwritten, htruth⟩ := h
  refine ⟨.not e, ?_, ?_⟩
  · rw [String.toList_append]
    exact hwritten.not
  · intro r
    rw [ofFormula, truth_not, htruth]

/-- One more term of a connective. -/
theorem Describes.join {k : Connective} {s t : String} {f g : Record → Truth} (hs : Describes (.group k) s f)
    (ht : Describes (operandLevel k) t g) :
    Describes (.group k) (s ++ joiner k ++ t) (fun r => k.join (f r) (g r)) := by
  obtain ⟨d, hwritten, htruth⟩ := hs
  obtain ⟨e, hwritten', htruth'⟩ := ht
  refine ⟨.join k d e, ?_, ?_⟩
  · rw [String.toList_append, String.toList_append, List.append_assoc]
    exact hwritten.join hwritten'
  · intro r
    rw [truth_ofFormula, Formula.truth, ← truth_ofFormula, ← truth_ofFormula, htruth, htruth']

/-- What binds tighter can stand where what binds less tight is expected. -/
theorem Describes.weaken {l m : Level} (hlm : ∀ {w : List (Token Lexeme)} {e : Formula Leaf},
      Condition.Reads Leaf.Reads l w e → Condition.Reads Leaf.Reads m w e)
    {text : String} {f : Record → Truth} (h : Describes l text f) : Describes m text f := by
  obtain ⟨e, hwritten, htruth⟩ := h
  exact ⟨e, hwritten.weaken hlm, htruth⟩

/-! ## Descriptions of predicates -/

/-- The text of a term of a group. -/
def termText (term : Predicate) : String :=
  if term.isGroup then "(" ++ describe term ++ ")" else describe term

theorem describeTerms_eq (terms : List Predicate) : describeTerms terms = terms.map termText := by
  induction terms with
  | nil => rw [describeTerms, List.map_nil]
  | cons term terms ih => rw [describeTerms, List.map_cons, ih, termText]

/-- The level at which the description of a predicate reads. -/
def level (p : Predicate) : Level :=
  if p.isGroup then .group .or else .factor

/-- The predicate has its truth as it is described. -/
def IsDescribed (p : Predicate) : Prop :=
  Describes p.level p.describe (fun r => truth r p)

theorem IsDescribed.describes {p : Predicate} (h : IsDescribed p) :
    Describes (.group .or) p.describe (fun r => truth r p) := by
  unfold IsDescribed level at h
  -- only a group reads at no tighter level than the whole
  cases hgroup : p.isGroup with
  | true => rwa [hgroup, if_pos rfl] at h
  | false =>
    rw [hgroup, if_neg Bool.false_ne_true] at h
    exact h.weaken Sql.reads_condition_of_factor

/-- A group stands in parentheses as a term, and nothing else needs them there. -/
theorem IsDescribed.describes_term {term : Predicate} (h : IsDescribed term) :
    Describes .factor (termText term) (fun r => truth r term) := by
  unfold termText
  -- a group is put in parentheses, and everything else stands as it is
  cases hgroup : term.isGroup with
  | true => exact h.describes.enclosed.weaken .primary
  | false =>
    unfold IsDescribed level at h
    rwa [hgroup, if_neg Bool.false_ne_true] at h

/-- Further terms of a connective after a part that has been read. -/
theorem Describes.joinTerms {k : Connective} {terms : List Predicate} (hterms : ∀ term ∈ terms, IsDescribed term)
    {text : String} {f : Record → Truth} (h : Describes (.group k) text f) :
    Describes (.group k) ((joiner k).intercalate (text :: terms.map termText))
      (fun r => k.join (f r) (k.group (terms.map fun term => truth r term))) := by
  -- the induction is over the terms to come, and what has been read so far grows by one term in each step
  induction terms generalizing text f with
  | nil => simpa using h
  | cons term terms ih =>
    rw [List.forall_mem_cons] at hterms
    have hterm := hterms.1.describes_term.weaken (Sql.reads_operand_of_factor k)
    have hstep : (joiner k).intercalate (text :: termText term :: terms.map termText) =
        (joiner k).intercalate ((text ++ joiner k ++ termText term) :: terms.map termText) := rfl
    rw [List.map_cons, hstep]
    simpa only [List.map_cons, Connective.group_cons, ← Connective.join_assoc] using ih hterms.2 (h.join hterm)

theorem describes_group (k : Connective) {terms : List Predicate} (hterms : ∀ term ∈ terms, IsDescribed term) :
    Describes (.group .or) (joined (emptyGroup k) (joiner k) (describeTerms terms))
      (fun r => k.group (terms.map fun term => truth r term)) := by
  rw [describeTerms_eq]
  cases terms with
  | nil =>
    -- no term at all is written as the constant that changes nothing in a group
    have hconstant : ∀ b, Describes (.group .or) (if b then "TRUE" else "FALSE") (fun _ => .ofBool b) :=
      fun b => (describes_constant b).weaken fun h => Sql.reads_condition_of_factor (.primary h)
    cases k with
    | and => exact hconstant true
    | or => exact hconstant false
  | cons term terms =>
    rw [List.forall_mem_cons] at hterms
    have hterm : Describes (.group k) (termText term) (fun r => truth r term) :=
      -- the first term is what has been read before the others
      hterms.1.describes_term.weaken fun h => .operand k (Sql.reads_operand_of_factor k h)
    simpa only [List.map_cons, joined, Connective.group_cons] using
      (hterm.joinTerms hterms.2).weaken (Sql.reads_condition_of_group k)

/-- Every predicate is described by its text. -/
theorem isDescribed (p : Predicate) : IsDescribed p := by
  induction p using Predicate.induct with
  | always =>
    unfold IsDescribed
    simp only [describe, truth_always]
    exact (describes_constant true).weaken .primary
  | compare field op value =>
    unfold IsDescribed
    rw [describe]
    exact (describes_comparison ⟨field, op, value⟩).weaken .primary
  | all terms ih =>
    unfold IsDescribed
    simp only [describe, truth_all]
    exact describes_group .and ih
  | any terms ih =>
    unfold IsDescribed
    simp only [describe, truth_any]
    exact describes_group .or ih
  | not term ih =>
    -- the term stands in parentheses, so that "not" applies to all of it
    have htext : describe (.not term) = "NOT " ++ ("(" ++ describe term ++ ")") := by
      rw [describe, ← String.toList_inj]
      simp
    unfold IsDescribed
    simp only [htext, truth_not]
    exact (ih.describes.enclosed.weaken .primary).not

/-- The description of a predicate, read by the grammar of conditions, has one reading only, and the predicate that it
stands for has the truth of the one that was described on every record.  So predicates with the same description are
true on the same records, and false on the same records, whatever texts they compare with. -/
theorem describe_reading (p : Predicate) :
    (∃ e, (∀ e', ReadsAs Leaf.Reads p.describe e' ↔ e' = e) ∧ ∀ r, truth r (ofFormula e) = truth r p) ∧
    ∀ q : Predicate, q.describe = p.describe → ∀ r, truth r q = truth r p := by
  -- both texts are read by their own predicates, and one text has one reading
  obtain ⟨e, hwritten, htruth⟩ := (isDescribed p).describes
  refine ⟨⟨e, hwritten.readsAs.iff_eq Leaf.Reads.unique, htruth⟩, ?_⟩
  intro q hq r
  obtain ⟨d, hwritten', htruth'⟩ := (isDescribed q).describes
  rw [hq] at hwritten'
  obtain rfl := hwritten'.readsAs.unique Leaf.Reads.unique hwritten.readsAs
  exact (htruth' r).symm.trans (htruth r)

/-- A comparison with a text that holds quotation marks, a parenthesis and keywords, alone and as the only term of a
group. -/
theorem describe_reading_marks :
    let p := Predicate.compare .username .eq (.text "' OR (TRUE AND ''")
    let q := Predicate.any [p]
    p.describe = "username = ''' OR (TRUE AND '''''" ∧
      (∃ e, (∀ e', ReadsAs Leaf.Reads p.describe e' ↔ e' = e) ∧ ∀ r, truth r (ofFormula e) = truth r p) ∧
      q.describe = p.describe ∧ ∀ r, truth r q = truth r p := by
  intro p q
  have hsame : q.describe = p.describe := by decide
  obtain ⟨hreading, hothers⟩ := describe_reading p
  exact ⟨by decide, hreading, hsame, hothers q hsame⟩

end Roster.Predicate
