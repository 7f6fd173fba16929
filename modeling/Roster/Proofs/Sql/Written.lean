import Roster.Proofs.Condition.Grammar
import Roster.Proofs.Sql.Lexeme
import Roster.Text.Case
import Roster.Value

/-! # Conditions as they are written

How the text of a condition is put together so that the grammar of conditions reads it: the words for the constants,
"not" and the connectives, and parentheses.  What comparisons look like is left open.

* `Written`: characters that read as a formula, with one lemma for each rule of the grammar.
* `ReadsAs`: a whole text that reads as a formula; there is one such formula at most.
-/

namespace Roster.Sql

open Condition (Token Formula Level operandLevel)

/-! ## Tokens -/

/-- The part of a lexeme in a condition.  Keywords may be written in either case. -/
def Lexeme.token : Lexeme → Token Lexeme
  | .word s =>
    match Text.upper s with
    | "AND" => .connective .and
    | "OR" => .connective .or
    | "NOT" => .not
    | "TRUE" => .constant true
    | "FALSE" => .constant false
    | _ => .other (.word s)
  | .symbol "(" => .opening
  | .symbol ")" => .closing
  | l => .other l

theorem toUpper_of_isDigit {c : Char} (h : c.isDigit = true) : c.toUpper = c := by
  have hlower : ¬(97 ≤ c.val ∧ c.val ≤ 122) := by
    rintro ⟨hlower, -⟩
    rw [Char.isDigit, Bool.and_eq_true, decide_eq_true_eq, decide_eq_true_eq] at h
    exact absurd (UInt32.le_trans hlower h.2) (by decide)
  exact dif_neg hlower

/-- A word of digits is no keyword. -/
theorem token_digits {s : String} (h : ∀ c ∈ s.toList, c.isDigit = true) :
    (Lexeme.word s).token = .other (.word s) := by
  -- digits have no upper case
  have hupper : Text.upper s = s := by
    have hmap : s.toList.map Char.toUpper = s.toList :=
      (List.map_congr_left fun c hc => toUpper_of_isDigit (h c hc)).trans (List.map_id' _)
    rw [Text.upper, hmap, String.ofList_toList]
  -- a keyword is no word of digits
  have hkeyword : ∀ {k : String}, k.toList.all Char.isDigit = false → Text.upper s ≠ k := by
    rintro k hk hs
    rw [← hs, hupper, List.all_eq_false] at hk
    obtain ⟨c, hc, hdigit⟩ := hk
    exact hdigit (h c hc)
  rw [Lexeme.token]
  split
  case h_6 => rfl
  all_goals next hs => exact absurd hs (hkeyword (by decide))

/-- What stands between the terms of a connective. -/
def joiner : Connective → String
  | .and => " AND "
  | .or => " OR "

def emptyGroup : Connective → String
  | .and => "TRUE"
  | .or => "FALSE"

/-- The word between the terms of a connective. -/
def keyword : Connective → String
  | .and => "AND"
  | .or => "OR"

theorem separates_joiner (k : Connective) : Separates (joiner k).toList [.word (keyword k)] := by
  constructor
  · intro rest
    cases k <;> rfl
  · intro rest
    cases k <;> exact atBreak_cons (by decide) _

theorem separates_operator (op : Comparison) : Separates (" " ++ op.symbol ++ " ").toList [.symbol op.symbol] := by
  constructor
  · intro rest
    cases op <;> rfl
  · intro rest
    cases op <;> exact atBreak_cons (by decide) _

theorem symbol_injective {p q : Comparison} (h : p.symbol = q.symbol) : p = q := by
  cases p <;> cases q <;> first | rfl | exact absurd h (by decide)

theorem separates_dot : Separates ".".toList [.symbol "."] := by
  constructor
  · intro rest
    cases rest <;> rfl
  · intro rest
    exact atBreak_cons (by decide) _

theorem separates_closing : Separates ")".toList [.symbol ")"] := by
  constructor
  · intro rest
    cases rest <;> rfl
  · intro rest
    exact atBreak_cons (by decide) _

theorem isolated_opening : Isolated "(".toList [.symbol "("] := by
  intro rest
  cases rest <;> rfl

theorem isolated_not : Isolated "NOT ".toList [.word "NOT"] := by
  intro rest
  rfl

/-! ## Reading -/

section Reading

variable {β : Type} {Atom : List Lexeme → β → Prop}

def ReadsAs (Atom : List Lexeme → β → Prop) (text : String) (e : Formula β) : Prop :=
  ∃ ls, lexemes? text = some ls ∧ Condition.Reads Atom (.group .or) (ls.map Lexeme.token) e

/-- A text has one reading at most, if comparisons have. -/
theorem ReadsAs.unique (hatom : ∀ ls b c, Atom ls b → Atom ls c → b = c) {text : String} {e f : Formula β}
    (he : ReadsAs Atom text e) (hf : ReadsAs Atom text f) : e = f := by
  obtain ⟨ls, hls, he⟩ := he
  obtain ⟨ms, hms, hf⟩ := hf
  rw [hls] at hms
  obtain rfl := Option.some.inj hms
  exact Condition.Reads.unique hatom he hf

/-- A text that has a reading has no other one. -/
theorem ReadsAs.iff_eq (hatom : ∀ ls b c, Atom ls b → Atom ls c → b = c) {text : String} {e : Formula β}
    (he : ReadsAs Atom text e) (e' : Formula β) : ReadsAs Atom text e' ↔ e' = e := by
  constructor
  · intro he'
    exact he'.unique hatom he
  · rintro rfl
    exact he

theorem reads_operand_of_factor (k : Connective) {w : List (Token Lexeme)} {e : Formula β}
    (h : Condition.Reads Atom .factor w e) : Condition.Reads Atom (operandLevel k) w e := by
  cases k with
  | and => exact h
  | or => exact .operand .and h

theorem reads_condition_of_group (k : Connective) {w : List (Token Lexeme)} {e : Formula β}
    (h : Condition.Reads Atom (.group k) w e) : Condition.Reads Atom (.group .or) w e := by
  cases k with
  | and => exact .operand .or h
  | or => exact h

theorem reads_condition_of_factor {w : List (Token Lexeme)} {e : Formula β}
    (h : Condition.Reads Atom .factor w e) : Condition.Reads Atom (.group .or) w e :=
  .operand .or (.operand .and h)

/-! ## Writing -/

/-- The characters read at the level as the formula, wherever a break follows them. -/
def Written (Atom : List Lexeme → β → Prop) (l : Level) (cs : List Char) (e : Formula β) : Prop :=
  ∃ ls, Spells cs ls ∧ Condition.Reads Atom l (ls.map Lexeme.token) e

/-- What is written reads as a text. -/
theorem Written.readsAs {s : String} {e : Formula β} (h : Written Atom (.group .or) s.toList e) : ReadsAs Atom s e := by
  obtain ⟨ls, hspells, hreads⟩ := h
  exact ⟨ls, hspells.lexemes?, hreads⟩

/-- What binds tighter can stand where what binds less tight is expected. -/
theorem Written.weaken {l m : Level} (hlm : ∀ {w : List (Token Lexeme)} {e : Formula β},
      Condition.Reads Atom l w e → Condition.Reads Atom m w e)
    {cs : List Char} {e : Formula β} (h : Written Atom l cs e) : Written Atom m cs e := by
  obtain ⟨ls, hspells, hreads⟩ := h
  exact ⟨ls, hspells, hlm hreads⟩

theorem written_constant (b : Bool) : Written Atom .primary (if b then "TRUE" else "FALSE").toList (.constant b) := by
  refine ⟨[.word (if b then "TRUE" else "FALSE")], ?_, ?_⟩
  · cases b <;> exact spells_word (by decide) (by decide)
  · cases b <;> exact .constant _

/-- A comparison, no lexeme of which is a parenthesis or a keyword. -/
theorem written_atom {cs : List Char} {ls : List Lexeme} {b : β} (hspells : Spells cs ls)
    (htokens : ls.map Lexeme.token = ls.map Token.other) (h : Atom ls b) : Written Atom .primary cs (.atom b) := by
  refine ⟨ls, hspells, ?_⟩
  rw [htokens]
  exact .atom h

/-- A condition in parentheses can stand anywhere. -/
theorem Written.enclosed {cs : List Char} {e : Formula β} (h : Written Atom (.group .or) cs e) :
    Written Atom .primary ("(".toList ++ (cs ++ ")".toList)) (.enclosed e) := by
  obtain ⟨ls, hspells, hreads⟩ := h
  refine ⟨[.symbol "("] ++ (ls ++ [.symbol ")"]), ?_, ?_⟩
  · exact isolated_opening.append_spells (hspells.append_separates separates_closing).spells
  · rw [List.map_append, List.map_append]
    exact .enclosed hreads

theorem Written.not {cs : List Char} {e : Formula β} (h : Written Atom .factor cs e) :
    Written Atom .factor ("NOT ".toList ++ cs) (.not e) := by
  obtain ⟨ls, hspells, hreads⟩ := h
  refine ⟨[.word "NOT"] ++ ls, isolated_not.append_spells hspells, ?_⟩
  rw [List.map_append]
  exact .not hreads

/-- One more term of a connective. -/
theorem Written.join {k : Connective} {as bs : List Char} {d e : Formula β} (hd : Written Atom (.group k) as d)
    (he : Written Atom (operandLevel k) bs e) :
    Written Atom (.group k) (as ++ ((joiner k).toList ++ bs)) (.join k d e) := by
  obtain ⟨ls, hspells, hreads⟩ := hd
  obtain ⟨ms, hspells', hreads'⟩ := he
  -- the word between the terms is the keyword of the connective
  have hkeyword : (Lexeme.word (keyword k)).token = .connective k := by
    cases k <;> rfl
  refine ⟨ls ++ [.word (keyword k)] ++ ms, ?_, ?_⟩
  · rw [← List.append_assoc]
    exact (hspells.append_separates (separates_joiner k)).append_spells hspells'
  · rw [List.append_assoc, List.map_append, List.singleton_append, List.map_cons, hkeyword]
    exact .join k hreads hreads'

end Reading

end Roster.Sql
