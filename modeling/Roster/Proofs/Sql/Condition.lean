import Roster.Proofs.Predicate.Truth
import Roster.Proofs.Sql.Counting
import Roster.Proofs.Sql.Written

/-! # Reading conditions of statements

The text of a condition, read by the grammar of conditions and evaluated in three-valued logic, means what the
predicate means for which it was written.

* `IsReading`: the text of a condition reads as a formula of comparisons between columns and slots.
* `Denotes`: a part of a condition, its slots counted from a number on, has a truth on every record.  There is one
  lemma for each rule of the grammar.
* `clauseFrom_reading`: the condition of a predicate has one reading only, and it has the predicate's truth.
* `clauseFrom_unreadable_past_greatest`: where the counter for the slots passes the greatest number, there is none.
-/

namespace Roster.Sql

open Condition (Token Formula Level operandLevel)

/-! ## Comparisons -/

/-- A side of a comparison: a column of a table, or a slot. -/
inductive Operand where
  | column (table name : String)
  | slot (number : Nat)
deriving Repr, DecidableEq

inductive Operand.Reads : List Lexeme → Operand → Prop where
  | column (table name : String) : Reads [.word table, .symbol ".", .name name] (.column table name)
  | slot (number : Nat) : Reads [.slot number] (.slot number)

structure Test where
  left : Operand
  op : Comparison
  right : Operand
deriving Repr, DecidableEq

inductive Test.Reads : List Lexeme → Test → Prop where
  | sides {us vs : List Lexeme} {left right : Operand} (op : Comparison) (hleft : Operand.Reads us left)
      (hright : Operand.Reads vs right) : Reads (us ++ .symbol op.symbol :: vs) ⟨left, op, right⟩

/-- The value of a side: a column is the field with that reference, and a slot has a value of its own. -/
def Operand.value (r : Record) (slots : Nat → Option Value) : Operand → Option Value
  | .column table name => (Field.values.find? fun field => field.reference == table ++ "." ++ quote name).bind r
  | .slot number => slots number

/-- The truth of a comparison; it is unknown when a side has no value or the kinds differ. -/
def Test.truth (r : Record) (slots : Nat → Option Value) (test : Test) : Truth :=
  match test.left.value r slots, test.right.value r slots with
  | some a, some b =>
    match a.compare? b with
    | some order => .ofBool (test.op.holds order)
    | none => .unknown
  | _, _ => .unknown

/-- The text of a condition reads as the formula. -/
def IsReading (text : String) (e : Formula Test) : Prop :=
  ∃ ls, lexemes? text = some ls ∧ Condition.Reads Test.Reads (.group .or) (ls.map Lexeme.token) e

/-- The values of the slots of a clause whose first slot has the number `n`. -/
def Clause.slotValue (c : Clause) (n : Int) (number : Nat) : Option Value :=
  if n ≤ number then c.params[(number - n).toNat]? else none

theorem Operand.Reads.unique {us : List Lexeme} {a b : Operand} (ha : Operand.Reads us a) (hb : Operand.Reads us b) :
    a = b := by
  cases ha <;> cases hb <;> rfl

theorem Test.Reads.inv {ls : List Lexeme} {left right : Operand} {op : Comparison}
    (h : Test.Reads ls ⟨left, op, right⟩) :
    ∃ us vs, ls = us ++ .symbol op.symbol :: vs ∧ Operand.Reads us left ∧ Operand.Reads vs right := by
  cases h with
  | sides op hleft hright => exact ⟨_, _, rfl, hleft, hright⟩

/-- No lexemes read as two comparisons. -/
theorem Test.Reads.unique (ls : List Lexeme) (a b : Test) (ha : Test.Reads ls a) (hb : Test.Reads ls b) : a = b := by
  obtain ⟨left, op, right⟩ := a
  obtain ⟨left', op', right'⟩ := b
  obtain ⟨us, vs, rfl, hleft, hright⟩ := ha.inv
  obtain ⟨us', vs', hls, hleft', hright'⟩ := hb.inv
  -- a column is three lexemes long and a slot one, so the operator stands in the same place
  cases hleft <;> cases hleft' <;> simp only [List.cons_append, List.nil_append, List.cons.injEq] at hls
  · obtain ⟨h₁, -, h₂, h₃, rfl⟩ := hls
    rw [Lexeme.word.inj h₁, Lexeme.name.inj h₂, symbol_injective (Lexeme.symbol.inj h₃), hright.unique hright']
  · cases hls.1
  · cases hls.1
  · obtain ⟨h₁, h₂, rfl⟩ := hls
    rw [Lexeme.slot.inj h₁, symbol_injective (Lexeme.symbol.inj h₂), hright.unique hright']

/-- A dollar sign that no number follows stands in no comparison. -/
theorem Test.Reads.dollar_not_mem {ls : List Lexeme} {test : Test} (h : Test.Reads ls test) : .symbol "$" ∉ ls := by
  -- the lexemes of a comparison are known one by one, and none of them is a dollar sign on its own
  have hside : ∀ {us : List Lexeme} {side : Operand}, Operand.Reads us side → .symbol "$" ∉ us := by
    intro us side hside
    cases hside <;> simp
  have hop : ∀ op : Comparison, "$" ≠ op.symbol := by
    intro op
    cases op <;> decide
  rcases h with ⟨op, hleft, hright⟩
  rw [List.mem_append, List.mem_cons, Lexeme.symbol.injEq]
  rintro (hmem | heq | hmem)
  · exact hside hleft hmem
  · exact hop op heq
  · exact hside hright hmem

/-- A text with such a dollar sign has no reading. -/
theorem not_isReading_of_dollar {text : String} {ls : List Lexeme} (hls : lexemes? text = some ls)
    (hdollar : .symbol "$" ∈ ls) (e : Formula Test) : ¬IsReading text e := by
  rintro ⟨ls', hls', hreads⟩
  obtain rfl := Option.some.inj (hls.symm.trans hls')
  rcases hreads.exists_atom (List.mem_map_of_mem hdollar) with ⟨us, test, htest, hmem⟩
  exact htest.dollar_not_mem hmem

/-- A text has one reading at most. -/
theorem IsReading.unique {text : String} {e f : Formula Test} (he : IsReading text e) (hf : IsReading text f) :
    e = f :=
  ReadsAs.unique Test.Reads.unique he hf

/-! ## Texts -/

/-- A separated list begins with its first part. -/
theorem joinWith_cons (separator : String) (sql : Sql) (sqls : List Sql) :
    joinWith separator (sql :: sqls) = sql ++ sqls.flatMap fun s => .text separator :: s := by
  induction sqls generalizing sql with
  | nil => simp [joinWith]
  | cons s sqls ih =>
    have hstep : joinWith separator (sql :: s :: sqls) = sql ++ .text separator :: joinWith separator (s :: sqls) := rfl
    rw [hstep, ih, List.flatMap_cons, List.cons_append]

/-- The lexemes of a column: a word, a dot and a quoted name. -/
def columnLexemes (field : Field) : List Lexeme :=
  [.word field.entity.alias, .symbol ".", .name field.column]

theorem spells_reference (field : Field) : Spells field.reference.toList (columnLexemes field) := by
  -- the letter of the entity is a word, and the dot is cut off from it
  have hword : Spells field.entity.alias.toList [.word field.entity.alias] := by
    apply spells_word <;> cases field <;> decide
  have htext : field.reference.toList =
      (field.entity.alias.toList ++ ".".toList) ++ (quote field.column).toList := by
    rw [Field.reference, String.toList_append, String.toList_append]
  rw [htext]
  exact (hword.append_separates separates_dot).append_spells (spells_quote field.column)

/-! ## What parts of a condition denote -/

/-- The slots from `n` on have the values in turn. -/
def Filled (slots : Nat → Option Value) (n : Int) (params : List Value) : Prop :=
  ∀ (i : Nat) (value : Value), params[i]? = some value → slots (n + i).toNat = some value

/-- The text reads at the level as a formula, and the formula has the truth `f r` on every record when the slots from
`n` on have the values. -/
def Denotes (l : Level) (sql : Sql) (n : Int) (params : List Value) (f : Record → Truth) : Prop :=
  ∃ ls e, Spells (render sql).toList ls ∧ Condition.Reads Test.Reads l (ls.map Lexeme.token) e ∧
    ∀ slots, Filled slots n params → ∀ r, e.truth (Test.truth r slots) = f r

theorem Filled.left {slots : Nat → Option Value} {n : Int} {ps qs : List Value} (h : Filled slots n (ps ++ qs)) :
    Filled slots n ps := by
  intro i value hi
  have hlt : i < ps.length := (List.getElem?_eq_some_iff.mp hi).1
  exact h i value ((List.getElem?_append_left hlt).trans hi)

theorem Filled.right {slots : Nat → Option Value} {n : Int} {ps qs : List Value} (h : Filled slots n (ps ++ qs)) :
    Filled slots (n + ps.length) qs := by
  intro i value hi
  -- the values of the second part are those of the whole, further on
  have hvalue : (ps ++ qs)[ps.length + i]? = some value := by
    rw [List.getElem?_append_right (Nat.le_add_right _ _), Nat.add_sub_cancel_left, hi]
  have hslot : (n + ps.length + i).toNat = (n + (ps.length + i : Nat)).toNat := by
    omega
  rw [hslot]
  exact h _ value hvalue

/-- The values of a clause fill the slots from its number on. -/
theorem Clause.filled_slotValue (c : Clause) {n : Int} (hn : 1 ≤ n) : Filled (c.slotValue n) n c.params := by
  intro i value hi
  have hle : n ≤ ((n + i).toNat : Int) := by omega
  have hnat : (((n + i).toNat : Int) - n).toNat = i := by omega
  rw [Clause.slotValue, if_pos hle, hnat, hi]

/-- What is written denotes the truth of what it reads as. -/
theorem Denotes.of_written {l : Level} {sql : Sql} {n : Int} {params : List Value} {f : Record → Truth}
    {e : Formula Test} (h : Written Test.Reads l (render sql).toList e)
    (htruth : ∀ slots, Filled slots n params → ∀ r, e.truth (Test.truth r slots) = f r) : Denotes l sql n params f := by
  obtain ⟨ls, hspells, hreads⟩ := h
  exact ⟨ls, e, hspells, hreads, htruth⟩

theorem Denotes.exists_written {l : Level} {sql : Sql} {n : Int} {params : List Value} {f : Record → Truth}
    (h : Denotes l sql n params f) :
    ∃ e, Written Test.Reads l (render sql).toList e ∧
      ∀ slots, Filled slots n params → ∀ r, e.truth (Test.truth r slots) = f r := by
  obtain ⟨ls, e, hspells, hreads, htruth⟩ := h
  exact ⟨e, ⟨ls, hspells, hreads⟩, htruth⟩

theorem denotes_constant (b : Bool) (n : Int) :
    Denotes .primary [.text (if b then "TRUE" else "FALSE")] n [] (fun _ => .ofBool b) := by
  have hwritten : Written Test.Reads .primary (render [.text (if b then "TRUE" else "FALSE")]).toList (.constant b) := by
    rw [toList_render_cons, toList_render_nil, List.append_nil]
    exact written_constant b
  refine .of_written hwritten ?_
  intro slots _ r
  rfl

/-- A column is found by its reference. -/
theorem find?_reference (field : Field) :
    (Field.values.find? fun f => f.reference == field.entity.alias ++ "." ++ quote field.column) = some field := by
  cases field <;> decide

theorem denotes_comparison (field : Field) (op : Comparison) (value : Value) {n : Int32} (hn : 1 ≤ n.toInt) :
    Denotes .primary [.column field, .text (" " ++ op.symbol ++ " "), .slot n] n.toInt [value]
      (fun r => Predicate.compareTruth r field op value) := by
  let column := Operand.column field.entity.alias field.column
  let ls := columnLexemes field ++ .symbol op.symbol :: [.slot n.toInt.toNat]
  have hspells : Spells (render [.column field, .text (" " ++ op.symbol ++ " "), .slot n]).toList ls := by
    have hslot := Piece.render_slot (show 0 ≤ n.toInt by omega)
    rw [toList_render_cons, toList_render_cons, toList_render_cons, toList_render_nil, hslot, List.append_nil,
      ← List.append_assoc]
    exact ((spells_reference field).append_separates (separates_operator op)).append_spells (spells_slot n.toInt.toNat)
  -- no part of a comparison is a keyword or a parenthesis
  have hothers : ls.map Lexeme.token = ls.map Token.other := by
    cases field <;> cases op <;> rfl
  refine .of_written (written_atom hspells hothers (.sides op (.column _ _) (.slot _))) ?_
  intro slots hslots r
  have hvalue : slots n.toInt.toNat = some value := by
    have hfirst := hslots 0 value rfl
    simpa using hfirst
  -- the reference belongs to one field only
  have hcolumn : column.value r slots = r field := by
    rw [Operand.value, find?_reference]
    rfl
  rw [Formula.truth, Test.truth, hcolumn]
  unfold Predicate.compareTruth
  simp only [Operand.value, hvalue]
  cases r field with
  | none => rfl
  | some actual =>
    simp only
    cases actual.compare? value <;> rfl

/-- A condition in parentheses can stand anywhere. -/
theorem Denotes.enclosed {sql : Sql} {n : Int} {params : List Value} {f : Record → Truth}
    (h : Denotes (.group .or) sql n params f) : Denotes .primary (enclosed sql) n params f := by
  obtain ⟨e, hwritten, htruth⟩ := h.exists_written
  refine .of_written (e := .enclosed e) ?_ htruth
  rw [Sql.enclosed, List.cons_append, toList_render_cons, toList_render_append]
  exact hwritten.enclosed

/-- A negation. -/
theorem Denotes.not {sql : Sql} {n : Int} {params : List Value} {f : Record → Truth}
    (h : Denotes .factor sql n params f) :
    Denotes .factor (.text "NOT " :: sql) n params (fun r => (f r).negate) := by
  -- the slots are those of the term, since "not" has none
  obtain ⟨e, hwritten, htruth⟩ := h.exists_written
  refine .of_written (e := .not e) ?_ ?_
  · rw [toList_render_cons]
    exact hwritten.not
  · intro slots hslots r
    rw [Formula.truth, htruth slots hslots]

/-- One more term of a connective; its slots follow those of the terms before it. -/
theorem Denotes.join {k : Connective} {s t : Sql} {n : Int} {ps qs : List Value} {f g : Record → Truth}
    (hs : Denotes (.group k) s n ps f) (ht : Denotes (operandLevel k) t (n + ps.length) qs g) :
    Denotes (.group k) (s ++ .text (joiner k) :: t) n (ps ++ qs) (fun r => k.join (f r) (g r)) := by
  obtain ⟨d, hwritten, htruth⟩ := hs.exists_written
  obtain ⟨e, hwritten', htruth'⟩ := ht.exists_written
  refine .of_written (e := .join k d e) ?_ ?_
  · rw [toList_render_append, toList_render_cons]
    exact hwritten.join hwritten'
  -- the slots of the left part come first, and those of the right part follow
  · intro slots hslots r
    rw [Formula.truth, htruth slots hslots.left, htruth' slots hslots.right]

/-- What binds tighter can stand where what binds less tight is expected. -/
theorem Denotes.weaken {l m : Level} (hlm : ∀ {w : List (Token Lexeme)} {e : Formula Test},
      Condition.Reads Test.Reads l w e → Condition.Reads Test.Reads m w e)
    {sql : Sql} {n : Int} {params : List Value} {f : Record → Truth} (h : Denotes l sql n params f) :
    Denotes m sql n params f := by
  obtain ⟨ls, e, hspells, hreads, htruth⟩ := h
  exact ⟨ls, e, hspells, hlm hreads, htruth⟩

/-! ## The condition of a predicate -/

/-- The condition of a predicate denotes its truth, wherever its slots begin, as long as they fit. -/
def IsDenoted (p : Predicate) : Prop :=
  ∀ n : Int32, 1 ≤ n.toInt → Fits n p.leaves.length →
    Denotes (.group .or) (clauseFrom n p).sql n.toInt (clauseFrom n p).params (fun r => p.truth r)

/-- The clauses of further terms of a connective, each in parentheses, after a part that has been read.  The slots
of a term follow those of all the terms before it. -/
theorem Denotes.joinTerms {k : Connective} {terms : List Predicate} (hterms : ∀ term ∈ terms, IsDenoted term)
    {sql : Sql} {n : Int32} {params : List Value} {f : Record → Truth} (hn : 1 ≤ n.toInt)
    (hfits : Fits n (params.length + (terms.flatMap Predicate.leaves).length))
    (h : Denotes (.group k) sql n.toInt params f) :
    Denotes (.group k)
      (sql ++ (clausesFrom (n + .ofNat params.length) terms).flatMap fun c => .text (joiner k) :: Sql.enclosed c.sql)
      n.toInt (params ++ (clausesFrom (n + .ofNat params.length) terms).flatMap Clause.params)
      (fun r => k.join (f r) (k.group (terms.map fun term => term.truth r))) := by
  -- the induction is over the terms to come, and what has been read so far grows by one term in each step
  induction terms generalizing sql params f with
  | nil => simpa [clausesFrom] using h
  | cons term terms ih =>
    let c := clauseFrom (n + .ofNat params.length) term
    -- the term fits from where the counter stands, and the counter says where that is
    have hcount : c.params.length = term.leaves.length := length_params_clauseFrom term _
    rw [List.flatMap_cons, List.length_append] at hfits
    have hnext : (n + .ofNat params.length).toInt = n.toInt + params.length := hfits.left.toInt_add
    have hfirst : 1 ≤ (n + .ofNat params.length).toInt := by
      rw [hnext]
      exact Int.le_trans hn (Int.le_add_of_nonneg_right (Int.natCast_nonneg _))
    have hterm : Denotes (operandLevel k) (Sql.enclosed c.sql) (n.toInt + params.length) c.params
        (fun r => term.truth r) := by
      have hdenoted := hterms term (List.mem_cons_self ..) _ hfirst hfits.right.left
      rw [hnext] at hdenoted
      exact hdenoted.enclosed.weaken fun h => reads_operand_of_factor k (.primary h)
    -- the counter has gone on by the slots of the term, and that is where the others go on
    have hlength : n + .ofNat (params ++ c.params).length = c.next (n + .ofNat params.length) := by
      rw [List.length_append, Int32.ofNat_add, ← Int32.add_assoc, Clause.next]
    have hrestFits : Fits n ((params ++ c.params).length + (terms.flatMap Predicate.leaves).length) := by
      rwa [List.length_append, hcount, Nat.add_assoc]
    have hrest := ih (fun t ht => hterms t (List.mem_cons_of_mem _ ht)) hrestFits (h.join hterm)
    rw [hlength] at hrest
    simpa only [clausesFrom, List.flatMap_cons, List.map_cons, List.append_assoc, List.cons_append,
      Connective.group_cons, ← Connective.join_assoc] using hrest

/-- The clause of a group. -/
theorem denotes_group (k : Connective) {terms : List Predicate} {n : Int32} (hn : 1 ≤ n.toInt)
    (hfits : Fits n (terms.flatMap Predicate.leaves).length) (hterms : ∀ term ∈ terms, IsDenoted term) :
    Denotes (.group .or) (Clause.group (emptyGroup k) (joiner k) (clausesFrom n terms)).sql n.toInt
      (Clause.group (emptyGroup k) (joiner k) (clausesFrom n terms)).params
      (fun r => k.group (terms.map fun term => term.truth r)) := by
  cases terms with
  | nil =>
    -- no term at all is written as the constant that changes nothing in a group
    have hconstant : ∀ b, Denotes (.group .or) [.text (if b then "TRUE" else "FALSE")] n.toInt [] (fun _ => .ofBool b) :=
      fun b => (denotes_constant b n.toInt).weaken fun h => reads_condition_of_factor (.primary h)
    cases k with
    | and => exact hconstant true
    | or => exact hconstant false
  | cons term terms =>
    let c := clauseFrom n term
    have hcount : c.params.length = term.leaves.length := length_params_clauseFrom term n
    rw [List.flatMap_cons, List.length_append] at hfits
    -- the first term is what has been read before the others
    have hterm : Denotes (.group k) (Sql.enclosed c.sql) n.toInt c.params (fun r => term.truth r) :=
      (hterms term (List.mem_cons_self ..) n hn hfits.left).enclosed.weaken fun h =>
        .operand k (reads_operand_of_factor k (.primary h))
    rw [← hcount] at hfits
    have hall := hterm.joinTerms (fun t ht => hterms t (List.mem_cons_of_mem _ ht)) hn hfits
    have hsql : (Clause.group (emptyGroup k) (joiner k) (clausesFrom n (term :: terms))).sql =
        Sql.enclosed c.sql ++ (clausesFrom (c.next n) terms).flatMap fun c =>
          .text (joiner k) :: Sql.enclosed c.sql := by
      rw [clausesFrom, Clause.group, List.map_cons, joinWith_cons, List.flatMap_map]
      exact List.cons_ne_nil _ _
    rw [hsql]
    simpa only [clausesFrom, Clause.group, Clause.next, List.flatMap_cons, List.map_cons, Connective.group_cons] using
      hall.weaken (reads_condition_of_group k)

/-- Every predicate is denoted by its condition. -/
theorem isDenoted (p : Predicate) : IsDenoted p := by
  -- the slots begin at any number, since a term finds those of the terms before it taken
  induction p using Predicate.induct with
  | always =>
    intro n _ _
    simp only [clauseFrom, Predicate.truth_always]
    exact (denotes_constant true n.toInt).weaken fun h => reads_condition_of_factor (.primary h)
  -- one slot is taken
  | compare field op value =>
    intro n hn _
    simp only [clauseFrom, Predicate.truth_compare]
    exact (denotes_comparison field op value hn).weaken fun h => reads_condition_of_factor (.primary h)
  | all terms ih =>
    intro n hn hfits
    rw [Predicate.leaves_all] at hfits
    simp only [clauseFrom, Predicate.truth_all]
    exact denotes_group .and hn hfits ih
  | any terms ih =>
    intro n hn hfits
    rw [Predicate.leaves_any] at hfits
    simp only [clauseFrom, Predicate.truth_any]
    exact denotes_group .or hn hfits ih
  | not term ih =>
    intro n hn hfits
    rw [Predicate.leaves_not] at hfits
    -- the term stands in parentheses, so that "not" applies to all of it
    have hterm : Denotes .factor (Sql.enclosed (clauseFrom n term).sql) n.toInt (clauseFrom n term).params
        (fun r => term.truth r) := (ih n hn hfits).enclosed.weaken .primary
    simp only [clauseFrom, Predicate.truth_not]
    exact hterm.not.weaken reads_condition_of_factor

/-- The condition of a predicate, its slots numbered from `n` on, has one reading only, as long as the counter for the
slots does not pass the greatest number.  With the values of the clause in its slots, that reading has the predicate's
truth on every record; it is true exactly on the records that satisfy the predicate. -/
theorem clauseFrom_reading (p : Predicate) (n : Int32) (hn : 1 ≤ n.toInt) (hfits : Fits n p.leaves.length) :
    ∃ e, (∀ e', IsReading (render (clauseFrom n p).sql) e' ↔ e' = e) ∧
      ∀ r, e.truth (Test.truth r ((clauseFrom n p).slotValue n.toInt)) = p.truth r ∧
        (e.truth (Test.truth r ((clauseFrom n p).slotValue n.toInt)) = .yes ↔ p.holds r = true) := by
  -- what is denoted is read, and no other reading of the same text is possible
  obtain ⟨ls, e, hspells, hreads, htruth⟩ := isDenoted p n hn hfits
  have hreading : IsReading (render (clauseFrom n p).sql) e := ⟨ls, hspells.lexemes?, hreads⟩
  refine ⟨e, ?_, ?_⟩
  · intro e'
    constructor
    · intro he'
      exact he'.unique hreading
    · rintro rfl
      exact hreading
  · intro r
    have hvalue := htruth _ ((clauseFrom n p).filled_slotValue hn) r
    rw [hvalue, Predicate.holds_iff]
    exact ⟨rfl, Iff.rfl⟩

/-- Groups in groups, one of them without terms and one with a single term, with slots from 5 on. -/
theorem clauseFrom_reading_nested :
    let teamless := Predicate.not (.compare .teamName .ne (.text "teamA"))
    let p := Predicate.all [.any [teamless], .any [.compare .age .ge (.int 18), .all []]]
    let c := clauseFrom 5 p
    render c.sql = "((NOT (t.\"name\" != $5))) AND ((m.\"age\" >= $6) OR (TRUE))" ∧
      1 ≤ (5 : Int32).toInt ∧ Fits 5 p.leaves.length ∧
      ∃ e, (∀ e', IsReading (render c.sql) e' ↔ e' = e) ∧
        ∀ r, e.truth (Test.truth r (c.slotValue 5)) = p.truth r ∧
          (e.truth (Test.truth r (c.slotValue 5)) = .yes ↔ p.holds r = true) := by
  intro teamless p c
  have hn : 1 ≤ (5 : Int32).toInt := by decide
  have hfits : Fits 5 p.leaves.length := by decide
  exact ⟨by decide, hn, hfits, clauseFrom_reading p 5 hn hfits⟩

/-- Past the greatest number the counter starts over with negative ones, and a condition with such a slot has no
reading. -/
theorem clauseFrom_unreadable_past_greatest :
    let p := Predicate.all [.compare .age .ge (.int 35), .compare .age .le (.int 45)]
    let text := render (clauseFrom 2147483647 p).sql
    1 ≤ (2147483647 : Int32).toInt ∧
      text = "(m.\"age\" >= $2147483647) AND (m.\"age\" <= $-2147483648)" ∧ ¬∃ e, IsReading text e := by
  intro p text
  -- the sign stands between the second dollar sign and its digits, so they are no slot together
  have hls : lexemes? text = some
      [.symbol "(", .word "m", .symbol ".", .name "age", .symbol ">=", .slot 2147483647, .symbol ")", .word "AND",
        .symbol "(", .word "m", .symbol ".", .name "age", .symbol "<=", .symbol "$", .symbol "-", .word "2147483648",
        .symbol ")"] := by
    decide +kernel
  refine ⟨by decide, by decide +kernel, ?_⟩
  rintro ⟨e, he⟩
  exact not_isReading_of_dollar hls (by decide) e he

end Roster.Sql
